import LxcUio.Foundation.CInt
import LxcUio.Foundation.CText

/-!
# `get_major_number`

`kvm-host-server.c`. The server takes the major number of the proxy's device from the second
line of a file under `/proc`: it looks for a digit and hands the rest to `strtol`.

The length of the line is an `ssize_t` that is kept in an `int`. From 2^31 bytes on it is
another number, and the scan ends before the line does.
-/

namespace LxcUio.Server

open LxcUio.Foundation

/-- What a library call returned, and what it set `errno` to, if it did. -/
structure LibraryCall (α : Type) where
  ret : α
  errno : Option ℤ

def LibraryCall.errnoAfter {α : Type} (call : LibraryCall α) (errno : ℤ) : ℤ :=
  call.errno.getD errno

/-- The calls in front of the scan. `fopen` delivers what the file holds, `getdelim` whether
it could store the line; `stale` is what the block holds behind the second line. The answer of
`fclose` only selects a message. -/
structure MajorNumberCalls where
  accessF : LibraryCall ℤ
  accessR : LibraryCall ℤ
  fopen : LibraryCall (Option (List UInt8))
  malloc : LibraryCall Bool
  getdelim1 : LibraryCall Bool
  getdelim2 : LibraryCall Bool
  stale : List UInt8

/-- `errno` when `strtol` is called. -/
def MajorNumberCalls.errnoBefore (calls : MajorNumberCalls) (errno : ℤ) : ℤ :=
  calls.getdelim2.errnoAfter <| calls.getdelim1.errnoAfter <| calls.malloc.errnoAfter <|
    calls.fopen.errnoAfter <| calls.accessR.errnoAfter <| calls.accessF.errnoAfter errno

/-- The value to return, the global `lxc_uio_cdev_major_number`, the offsets at which the scan
tested a byte, and what is not yet given back. -/
structure MajorNumberState where
  majorNumber : ℤ
  cdevMajorNumber : ℤ
  looked : List ℕ
  fpOpen : Bool
  lineAllocated : Bool
deriving DecidableEq

def MajorNumberState.init (cdevMajorNumber : ℤ) : MajorNumberState :=
  ⟨-1, cdevMajorNumber, [], false, false⟩

/-- From `out_fclose` on. -/
def MajorNumberState.outFclose (s : MajorNumberState) : MajorNumberState :=
  { s with fpOpen := false }

/-- From `out_clean` on. -/
def MajorNumberState.outClean (s : MajorNumberState) : MajorNumberState :=
  { s with lineAllocated := false }.outFclose

/-- `while(!isdigit(*p))`, with `p` at offset `i`: the offsets that are tested, and the bytes
from the digit on unless the end is met first. -/
def scan (len : ℤ) (i : ℕ) : List UInt8 → Option (List ℕ × Option (List UInt8))
  | [] => none
  | b :: rest =>
      if isdigit (toChar b) = true then some ([i], some (b :: rest))
      else if ((i + 1 : ℕ) : ℤ) ≥ len then some ([i], none)
      else (scan len (i + 1) rest).map fun r => (i :: r.1, r.2)

def largestInt : ℤ := 2 ^ 31 - 1

/-- The checks of what `strtol` returned. -/
def checkMajorNumber (errno majorNumberLong : ℤ) : Option ℤ :=
  if errno = EINVAL then none
  else if errno = ERANGE then none
  else if errno ≠ 0 then none
  else if majorNumberLong > largestInt then none
  else some (toInt majorNumberLong)

/-- All is well if there is a number. -/
def MajorNumberState.assign (s : MajorNumberState) : Option ℤ → MajorNumberState
  | none => s
  | some n => { s with majorNumber := n, cdevMajorNumber := n }

/-- The second line, from the test of its length to `out_clean`. Its bytes stand in front of a
NUL and of `stale`. -/
def readLine (errno : ℤ) (line stale : List UInt8) (s : MajorNumberState) :
    Option MajorNumberState :=
  let len := toInt line.length
  if len < 0 then some s
  else
    match scan len 0 (line ++ 0 :: stale) with
    | none => none
    | some (looked, none) => some { s with looked := looked }
    | some (looked, some p) =>
        (strtol p).map fun r =>
          { s with looked := looked }.assign (checkMajorNumber (r.2.getD errno) r.1)

/-- From the first `getdelim` to `out_clean`. -/
def readMajorNumber (errno : ℤ) (calls : MajorNumberCalls) (content : List UInt8)
    (s : MajorNumberState) : Option MajorNumberState :=
  match getdelim calls.getdelim1.ret content with
  | none => some s
  | some (_, content) =>
      match getdelim calls.getdelim2.ret content with
      | none => some s
      | some (line, _) => readLine errno line calls.stale s

/-- `get_major_number`, or no state when it reads outside the block of `line`. -/
def getMajorNumber (errno cdevMajorNumber : ℤ) (calls : MajorNumberCalls) :
    Option MajorNumberState :=
  let s := MajorNumberState.init cdevMajorNumber
  if calls.accessF.ret < 0 then some s
  else if calls.accessR.ret < 0 then some s
  else
    match calls.fopen.ret with
    | none => some s
    | some content =>
        let s := { s with fpOpen := true }
        if calls.malloc.ret = false then some s.outFclose
        else
          let s := { s with lineAllocated := true }
          (readMajorNumber (calls.errnoBefore errno) calls content s).map
            MajorNumberState.outClean

/-! ## The scan -/

theorem not_isdigit {b : UInt8} (hb : ¬ IsDigit b) : ¬ isdigit (toChar b) = true :=
  mt (isdigit_toChar b).mp hb

/-- Beyond its first byte the scan stays in front of `len`. -/
theorem scan_looked {len : ℤ} {block : List UInt8} : ∀ {i : ℕ} {looked : List ℕ}
    {p : Option (List UInt8)}, scan len i block = some (looked, p) →
    ∀ j ∈ looked, j = i ∨ (j : ℤ) < len := by
  induction block with
  | nil =>
      intro i looked p hscan
      cases hscan
  | cons b block ih =>
      intro i looked p hscan j hj
      unfold scan at hscan
      split at hscan
      · cases hscan
        exact Or.inl (List.mem_singleton.mp hj)
      · split at hscan
        · cases hscan
          exact Or.inl (List.mem_singleton.mp hj)
        · rename_i hmore
          obtain ⟨⟨tail, q⟩, hrest, heq⟩ := Option.map_eq_some_iff.mp hscan
          cases heq
          rcases List.mem_cons.mp hj with rfl | htail
          · exact Or.inl rfl
          · right
            rcases ih hrest j htail with rfl | hlt
            · exact not_le.mp hmore
            · exact hlt

/-- A digit in front of `len` is found. -/
theorem scan_found {len : ℤ} {before rest : List UInt8} {d : UInt8} (hd : IsDigit d)
    (hbefore : ∀ b ∈ before, ¬ IsDigit b) : ∀ i : ℕ,
    (before = [] ∨ ((i + before.length : ℕ) : ℤ) < len) →
    ∃ looked, scan len i (before ++ d :: rest) = some (looked, some (d :: rest)) := by
  induction before with
  | nil =>
      intro i _
      exact ⟨[i], if_pos ((isdigit_toChar d).mpr hd)⟩
  | cons b before ih =>
      intro i hlen
      obtain ⟨hb, hbefore⟩ := List.forall_mem_cons.mp hbefore
      have hlt : ((i + (before.length + 1) : ℕ) : ℤ) < len :=
        hlen.resolve_left (List.cons_ne_nil b before)
      have hmore : ¬ ((i + 1 : ℕ) : ℤ) ≥ len := by omega
      obtain ⟨looked, hscan⟩ := ih hbefore (i + 1) (Or.inr (by omega))
      refine ⟨i :: looked, ?_⟩
      rw [List.cons_append, scan, if_neg (not_isdigit hb), if_neg hmore, hscan]
      rfl

/-- Without one the scan gives up. -/
theorem scan_missing {len : ℤ} {before : List UInt8} (rest : List UInt8)
    (hbefore : ∀ b ∈ before, ¬ IsDigit b) : ∀ i : ℕ, before ≠ [] →
    len ≤ ((i + before.length : ℕ) : ℤ) →
    ∃ looked, scan len i (before ++ rest) = some (looked, none) := by
  induction before with
  | nil => exact fun _ hne => absurd rfl hne
  | cons b before ih =>
      intro i _ hlen
      obtain ⟨hb, hbefore⟩ := List.forall_mem_cons.mp hbefore
      rw [List.length_cons] at hlen
      rw [List.cons_append, scan, if_neg (not_isdigit hb)]
      by_cases hend : ((i + 1 : ℕ) : ℤ) ≥ len
      · rw [if_pos hend]
        exact ⟨[i], rfl⟩
      · have hne : before ≠ [] := by
          rintro rfl
          rw [List.length_nil] at hlen
          omega
        obtain ⟨looked, hscan⟩ := ih hbefore (i + 1) hne (by omega)
        rw [if_neg hend, hscan]
        exact ⟨i :: looked, rfl⟩

@[simp] theorem assign_majorNumber (s : MajorNumberState) (accepted : Option ℤ) :
    (s.assign accepted).majorNumber = accepted.getD s.majorNumber := by
  cases accepted <;> rfl

/-! ## The second line -/

/-- The first digit stands where the scan, which takes the length for an `int`, gets to. -/
def InReach (line : List UInt8) : Prop :=
  0 ≤ toInt line.length ∧ (line.findIdx (fun b => IsDigit b) = 0 ∨
    (line.findIdx (fun b => IsDigit b) : ℤ) < toInt line.length)

instance : DecidablePred InReach := fun line =>
  inferInstanceAs (Decidable (0 ≤ toInt line.length ∧ _))

/-- The number that the line shows first, if it is an `int`. -/
def acceptedNumber (line : List UInt8) : Option ℤ :=
  if digitRun line = [] ∨ (decimalValue (digitRun line) : ℤ) > largestInt then none
  else some (decimalValue (digitRun line))

theorem findIdx_digit {before rest : List UInt8} {d : UInt8}
    (hbefore : ∀ b ∈ before, ¬ IsDigit b) (hd : IsDigit d) :
    (before ++ d :: rest).findIdx (fun b => IsDigit b) = before.length := by
  have hnone : before.findIdx (fun b => IsDigit b) = before.length :=
    List.findIdx_eq_length_of_false fun b hb => decide_eq_false (hbefore b hb)
  rw [List.findIdx_append, if_neg (by simp [hnone]), List.findIdx_cons]
  simp [hd]

theorem inReach_iff {before rest : List UInt8} {d : UInt8}
    (hbefore : ∀ b ∈ before, ¬ IsDigit b) (hd : IsDigit d) :
    InReach (before ++ d :: rest) ↔ 0 ≤ toInt (before ++ d :: rest).length ∧
      (before = [] ∨ (before.length : ℤ) < toInt (before ++ d :: rest).length) := by
  rw [InReach, findIdx_digit hbefore hd, List.length_eq_zero_iff]

theorem toInt_length_le (line : List UInt8) : toInt line.length ≤ line.length :=
  toInt_le (Int.natCast_nonneg _)

/-- A value beyond `long` is no `int` either. -/
theorem checkMajorNumber_clampLong {line : List UInt8} (hne : digitRun line ≠ []) :
    checkMajorNumber ((clampLong (decimalValue (digitRun line))).2.getD 0)
      (clampLong (decimalValue (digitRun line))).1 = acceptedNumber line := by
  have hint : largestInt < longMax := by decide
  have hmin : ¬ (decimalValue (digitRun line) : ℤ) < longMin := by
    unfold longMin
    omega
  by_cases hlong : (decimalValue (digitRun line) : ℤ) > longMax
  · rw [clampLong, if_pos hlong, acceptedNumber, if_pos (Or.inr (lt_trans hint hlong))]
    rfl
  · rw [clampLong, if_neg hlong, if_neg hmin, acceptedNumber]
    by_cases hbig : (decimalValue (digitRun line) : ℤ) > largestInt
    · rw [if_pos (Or.inr hbig)]
      simp [checkMajorNumber, EINVAL, ERANGE, hbig]
    · have hexact : toInt (decimalValue (digitRun line)) = decimalValue (digitRun line) := by
        unfold largestInt at hbig
        exact toInt_of_bounds (by omega) (by omega)
      rw [if_neg (not_or.mpr ⟨hne, hbig⟩)]
      simp [checkMajorNumber, EINVAL, ERANGE, hbig, hexact]

/-- The offsets that are tested are inside the line, wherever the scan ends. -/
theorem scan_inside {line block : List UInt8} (hne : line ≠ []) {looked : List ℕ}
    {p : Option (List UInt8)} (hscan : scan (toInt line.length) 0 block = some (looked, p)) :
    ∀ j ∈ looked, j < line.length := by
  intro j hj
  rcases scan_looked hscan j hj with rfl | hlt
  · exact List.length_pos_iff.mpr hne
  · exact Int.ofNat_lt.mp (lt_of_lt_of_le hlt (toInt_length_le line))

theorem scan_line_found {before rest : List UInt8} {d : UInt8}
    (hbefore : ∀ b ∈ before, ¬ IsDigit b) (hd : IsDigit d)
    (hreach : InReach (before ++ d :: rest)) (stale : List UInt8) :
    ∃ looked, scan (toInt (before ++ d :: rest).length) 0 (before ++ d :: rest ++ 0 :: stale) =
      some (looked, some (d :: rest ++ 0 :: stale)) := by
  have hfront := ((inReach_iff hbefore hd).mp hreach).2
  rw [List.append_assoc, List.cons_append]
  apply scan_found hd hbefore 0
  rwa [Nat.zero_add]

theorem scan_line_missing {line : List UInt8} (hne : line ≠ []) (hlen : 0 ≤ toInt line.length)
    (h : digitRun line = [] ∨ ¬ InReach line) (stale : List UInt8) :
    ∃ looked, scan (toInt line.length) 0 (line ++ 0 :: stale) = some (looked, none) := by
  rcases digits_split line with hnone | ⟨before, d, rest, rfl, hbefore, hd⟩
  · apply scan_missing (0 :: stale) hnone 0 hne
    rw [Nat.zero_add]
    exact toInt_length_le line
  · have hout : ¬ InReach (before ++ d :: rest) := h.resolve_left (digitRun_ne_nil hbefore hd)
    rw [inReach_iff hbefore hd, and_iff_right hlen] at hout
    obtain ⟨hfirst, hbehind⟩ := not_or.mp hout
    rw [List.append_assoc]
    apply scan_missing _ hbefore 0 hfirst
    rw [Nat.zero_add]
    exact not_lt.mp hbehind

/-- What is made of a line: its number, if the scan reaches it. -/
theorem readLine_eq {line : List UInt8} (hne : line ≠ []) (stale : List UInt8)
    {s : MajorNumberState} (hs : s.looked = []) :
    ∃ looked, (∀ j ∈ looked, j < line.length) ∧ readLine 0 line stale s =
      some ({ s with looked := looked }.assign
        (if InReach line then acceptedNumber line else none)) := by
  by_cases hneg : toInt line.length < 0
  · have hout : ¬ InReach line := fun h => absurd h.1 (not_le.mpr hneg)
    refine ⟨[], List.forall_mem_nil _, ?_⟩
    rw [readLine, if_pos hneg, if_neg hout, ← hs]
    rfl
  by_cases hmissing : digitRun line = [] ∨ ¬ InReach line
  · obtain ⟨looked, hscan⟩ := scan_line_missing hne (not_lt.mp hneg) hmissing stale
    have hnothing : (if InReach line then acceptedNumber line else none) = none := by
      rcases hmissing with hnil | hout
      · rw [acceptedNumber, if_pos (Or.inl hnil), ite_self]
      · rw [if_neg hout]
    refine ⟨looked, scan_inside hne hscan, ?_⟩
    rw [hnothing]
    simp only [readLine, if_neg hneg, hscan]
    rfl
  · obtain ⟨hrun, hreach⟩ := not_or.mp hmissing
    rcases digits_split line with hnone | ⟨before, d, rest, rfl, hbefore, hd⟩
    · exact absurd (digitRun_eq_nil hnone) hrun
    obtain ⟨looked, hscan⟩ := scan_line_found hbefore hd (not_not.mp hreach) stale
    have hlong := strtol_of_digit hd (show ¬ IsDigit 0 by decide) rest stale
    rw [← digitRun_skip hbefore] at hlong
    refine ⟨looked, scan_inside hne hscan, ?_⟩
    rw [if_pos (not_not.mp hreach), ← checkMajorNumber_clampLong hrun]
    simp only [readLine, if_neg hneg, hscan, hlong, Option.map_some]

/-! ## The function -/

/-- A file of at least two lines. -/
structure TwoLines where
  first : List UInt8
  second : List UInt8
  more : List UInt8
  isFirst : IsLine first (second ++ more)
  isSecond : IsLine second more

def TwoLines.content (file : TwoLines) : List UInt8 := file.first ++ (file.second ++ file.more)

/-- Calls that succeed and leave `errno` alone. -/
def MajorNumberCalls.succeeding (content stale : List UInt8) : MajorNumberCalls where
  accessF := ⟨0, none⟩
  accessR := ⟨0, none⟩
  fopen := ⟨some content, none⟩
  malloc := ⟨true, none⟩
  getdelim1 := ⟨true, none⟩
  getdelim2 := ⟨true, none⟩
  stale := stale

/-- **The major number of a line.** It is the number that the line shows first, if that is an
`int`, and otherwise -1; the scan tests no byte behind the line. -/
structure MajorNumberExact (line : List UInt8) (s : MajorNumberState) : Prop where
  number : ∀ m : ℕ, s.majorNumber = m ↔ FirstNumber line m ∧ (m : ℤ) ≤ largestInt
  otherwise : (¬ ∃ m : ℕ, FirstNumber line m ∧ (m : ℤ) ≤ largestInt) → s.majorNumber = -1
  inside : ∀ j ∈ s.looked, j < line.length

/-- `get_major_number` comes back with that number. -/
def ReadsExactly (line : List UInt8) (result : Option MajorNumberState) : Prop :=
  ∃ s, result = some s ∧ MajorNumberExact line s

/-- A call that does not get to the file has done nothing in the end. -/
theorem getMajorNumber_cases {errno cdevMajorNumber : ℤ} {calls : MajorNumberCalls}
    {s : MajorNumberState} (h : getMajorNumber errno cdevMajorNumber calls = some s) :
    s = .init cdevMajorNumber ∨
      ∃ content t, readMajorNumber (calls.errnoBefore errno) calls content
        ⟨-1, cdevMajorNumber, [], true, true⟩ = some t ∧ s = t.outClean := by
  unfold getMajorNumber at h
  dsimp only at h
  split at h
  · exact Or.inl (Option.some.inj h).symm
  · split at h
    · exact Or.inl (Option.some.inj h).symm
    · split at h
      · exact Or.inl (Option.some.inj h).symm
      · split at h
        · exact Or.inl (Option.some.inj h).symm
        · obtain ⟨t, hread, hs⟩ := Option.map_eq_some_iff.mp h
          exact Or.inr ⟨_, t, hread, hs.symm⟩

theorem readMajorNumber_cases {errno : ℤ} {calls : MajorNumberCalls} {content : List UInt8}
    {s s' : MajorNumberState} (h : readMajorNumber errno calls content s = some s') :
    s' = s ∨ ∃ line, readLine errno line calls.stale s = some s' := by
  unfold readMajorNumber at h
  split at h
  · exact Or.inl (Option.some.inj h).symm
  · split at h
    · exact Or.inl (Option.some.inj h).symm
    · exact Or.inr ⟨_, h⟩

/-- Whatever the calls answer, the file is closed and the line freed. -/
theorem getMajorNumber_released {errno cdevMajorNumber : ℤ} {calls : MajorNumberCalls}
    {s : MajorNumberState} (h : getMajorNumber errno cdevMajorNumber calls = some s) :
    s.fpOpen = false ∧ s.lineAllocated = false := by
  rcases getMajorNumber_cases h with rfl | ⟨content, t, -, rfl⟩
  · exact ⟨rfl, rfl⟩
  · exact ⟨rfl, rfl⟩

theorem checkMajorNumber_of_errno {errno : ℤ} (h : errno ≠ 0) (n : ℤ) :
    checkMajorNumber errno n = none := by
  unfold checkMajorNumber
  rw [if_pos h]
  split <;> [rfl; (split <;> rfl)]

/-- An `errno` that an earlier call left behind is taken for one of `strtol`. -/
theorem readLine_of_errno {errno : ℤ} {line stale : List UInt8} {s s' : MajorNumberState}
    (herrno : errno ≠ 0) (h : readLine errno line stale s = some s') :
    s'.majorNumber = s.majorNumber := by
  unfold readLine at h
  dsimp only at h
  split at h
  · cases h
    rfl
  · split at h
    · cases h
    · cases h
      rfl
    · obtain ⟨⟨n, e⟩, hlong, rfl⟩ := Option.map_eq_some_iff.mp h
      have hset : e.getD errno ≠ 0 := by
        cases e with
        | none => exact herrno
        | some e =>
            obtain rfl := strtol_errno hlong
            exact (by decide : ERANGE ≠ 0)
      rw [checkMajorNumber_of_errno hset]
      rfl

/-- Then no file has a major number. -/
theorem getMajorNumber_of_errno {errno cdevMajorNumber : ℤ} {calls : MajorNumberCalls}
    {s : MajorNumberState} (herrno : calls.errnoBefore errno ≠ 0)
    (h : getMajorNumber errno cdevMajorNumber calls = some s) : s.majorNumber = -1 := by
  rcases getMajorNumber_cases h with rfl | ⟨content, t, hread, rfl⟩
  · rfl
  · rcases readMajorNumber_cases hread with rfl | ⟨line, hline⟩
    · rfl
    · exact readLine_of_errno herrno hline

/-- A file without a second line has none either. -/
theorem twoLines_or_nothing (content stale : List UInt8) (cdevMajorNumber : ℤ) :
    (∃ file : TwoLines, file.content = content) ∨
      getMajorNumber 0 cdevMajorNumber (.succeeding content stale) =
        some (.init cdevMajorNumber) := by
  cases hfirst : getdelim true content with
  | none =>
      right
      simp [getMajorNumber, readMajorNumber, MajorNumberCalls.succeeding, hfirst,
        MajorNumberState.init, MajorNumberState.outClean, MajorNumberState.outFclose]
  | some cut =>
      obtain ⟨first, rest⟩ := cut
      obtain ⟨hfirstLine, rfl⟩ := isLine_of_getdelim hfirst
      cases hsecond : getdelim true rest with
      | none =>
          right
          simp [getMajorNumber, readMajorNumber, MajorNumberCalls.succeeding, hfirst, hsecond,
            MajorNumberState.init, MajorNumberState.outClean, MajorNumberState.outFclose]
      | some cut =>
          obtain ⟨second, more⟩ := cut
          obtain ⟨hsecondLine, rfl⟩ := isLine_of_getdelim hsecond
          exact Or.inl ⟨⟨first, second, more, hfirstLine, hsecondLine⟩, rfl⟩

/-- The function on a file of two lines. -/
theorem getMajorNumber_eq (file : TwoLines) (stale : List UInt8) (cdevMajorNumber : ℤ) :
    ∃ looked, (∀ j ∈ looked, j < file.second.length) ∧
      getMajorNumber 0 cdevMajorNumber (.succeeding file.content stale) =
        some ({ MajorNumberState.init cdevMajorNumber with looked := looked }.assign
          (if InReach file.second then acceptedNumber file.second else none)) := by
  let s : MajorNumberState := ⟨-1, cdevMajorNumber, [], true, true⟩
  have hlooked : s.looked = [] := rfl
  obtain ⟨looked, hinside, hline⟩ := readLine_eq file.isSecond.ne_nil stale hlooked
  have hread : readMajorNumber 0 (.succeeding file.content stale) file.content s =
      readLine 0 file.second stale s := by
    simp only [readMajorNumber, MajorNumberCalls.succeeding, TwoLines.content,
      getdelim_line file.isFirst, getdelim_line file.isSecond]
  refine ⟨looked, hinside, ?_⟩
  show (readMajorNumber 0 (.succeeding file.content stale) file.content s).map
    MajorNumberState.outClean = _
  rw [hread, hline]
  cases (if InReach file.second then acceptedNumber file.second else none) <;> rfl

theorem acceptedNumber_eq_some {line : List UInt8} {m : ℕ} :
    acceptedNumber line = some (m : ℤ) ↔ FirstNumber line m ∧ (m : ℤ) ≤ largestInt := by
  rw [firstNumber_iff, acceptedNumber]
  constructor
  · intro h
    split at h
    · cases h
    · rename_i hnot
      obtain ⟨hne, hle⟩ := not_or.mp hnot
      have hm : decimalValue (digitRun line) = m := Int.ofNat_inj.mp (Option.some.inj h)
      exact ⟨⟨hne, hm⟩, hm ▸ not_lt.mp hle⟩
  · rintro ⟨⟨hne, rfl⟩, hle⟩
    exact if_neg (not_or.mpr ⟨hne, not_lt.mpr hle⟩)

theorem acceptedNumber_cases (line : List UInt8) :
    acceptedNumber line = none ∨ ∃ m : ℕ, acceptedNumber line = some (m : ℤ) := by
  unfold acceptedNumber
  split
  · exact Or.inl rfl
  · exact Or.inr ⟨_, rfl⟩

/-- The accepted number is the right one. -/
theorem exact_of_accepted {line : List UInt8} {s : MajorNumberState} (hs : s.majorNumber = -1)
    (hinside : ∀ j ∈ s.looked, j < line.length) :
    MajorNumberExact line (s.assign (acceptedNumber line)) := by
  rcases acceptedNumber_cases line with hnone | ⟨n, hn⟩
  · have hnot : ∀ m : ℕ, ¬ (FirstNumber line m ∧ (m : ℤ) ≤ largestInt) := by
      intro m hm
      rw [acceptedNumber_eq_some.mpr hm] at hnone
      cases hnone
    rw [hnone]
    refine ⟨fun m => iff_of_false ?_ (hnot m), fun _ => hs, hinside⟩
    show ¬ s.majorNumber = m
    omega
  · rw [hn]
    refine ⟨fun m => ?_, fun hnot => ?_, hinside⟩
    · rw [← acceptedNumber_eq_some, hn, Option.some_inj]
      rfl
    · exact absurd ⟨n, acceptedNumber_eq_some.mp hn⟩ hnot

/-- **When the number is read exactly**: when the scan reaches it, and when there is none to
accept. -/
theorem readsExactly_iff (file : TwoLines) (stale : List UInt8) (cdevMajorNumber : ℤ) :
    ReadsExactly file.second
        (getMajorNumber 0 cdevMajorNumber (.succeeding file.content stale)) ↔
      InReach file.second ∨ ∀ m : ℕ, FirstNumber file.second m → (m : ℤ) > largestInt := by
  obtain ⟨looked, hinside, hrun⟩ := getMajorNumber_eq file stale cdevMajorNumber
  rw [hrun]
  constructor
  · rintro ⟨s, hs, hexact⟩
    obtain rfl := Option.some.inj hs
    by_contra hnot
    obtain ⟨hout, hsome⟩ := not_or.mp hnot
    push Not at hsome
    obtain ⟨m, hfirst, hle⟩ := hsome
    have hnumber := (hexact.number m).mpr ⟨hfirst, hle⟩
    rw [if_neg hout] at hnumber
    -- nothing was assigned
    have hminus : (-1 : ℤ) = m := hnumber
    omega
  · intro h
    have haccepted : (if InReach file.second then acceptedNumber file.second else none) =
        acceptedNumber file.second := by
      rcases h with hreach | hlarge
      · rw [if_pos hreach]
      · rcases acceptedNumber_cases file.second with hnone | ⟨n, hn⟩
        · rw [hnone, ite_self]
        · obtain ⟨hfirst, hle⟩ := acceptedNumber_eq_some.mp hn
          exact absurd (hlarge n hfirst) (not_lt.mpr hle)
    rw [haccepted]
    exact ⟨_, rfl, exact_of_accepted rfl hinside⟩

/-- A line of less than 2^31 bytes is scanned to its end. -/
theorem inReach_of_short {line : List UInt8} (hshort : line.length < 2 ^ 31)
    (hdigit : digitRun line ≠ []) : InReach line := by
  have hlen : toInt line.length = line.length := toInt_of_bounds (by omega) (by omega)
  rcases digits_split line with hnone | ⟨before, d, rest, rfl, hbefore, hd⟩
  · exact absurd (digitRun_eq_nil hnone) hdigit
  · rw [inReach_iff hbefore hd, hlen, List.length_append, List.length_cons]
    exact ⟨Int.natCast_nonneg _, Or.inr (by omega)⟩

/-! ## A line that is too long -/

/-- An empty line, and a 7 with `n` blanks behind it. -/
def sevenAndBlanks (n : ℕ) : TwoLines where
  first := [newline]
  second := 55 :: List.replicate n 32
  more := []
  isFirst := .ended (List.not_mem_nil)
  isSecond := by
    refine .last (List.cons_ne_nil _ _) fun hmem => ?_
    rcases List.mem_cons.mp hmem with h | h
    · exact absurd h (by decide)
    · exact absurd (List.eq_of_mem_replicate h) (by decide)

theorem length_sevenAndBlanks (n : ℕ) : (sevenAndBlanks n).second.length = n + 1 := by
  rw [sevenAndBlanks, List.length_cons, List.length_replicate]

theorem firstNumber_sevenAndBlanks (n : ℕ) : FirstNumber (sevenAndBlanks n).second 7 := by
  have hafter : ∀ b ∈ (List.replicate n (32 : UInt8)).head?, ¬ IsDigit b := by
    intro b hb
    rw [List.eq_of_mem_replicate (List.mem_of_mem_head? hb)]
    decide
  have hfirst : FirstNumber ([] ++ [55] ++ List.replicate n 32) (decimalValue [55]) :=
    .intro (List.forall_mem_nil _) (List.cons_ne_nil 55 [])
      (List.forall_mem_singleton.mpr (by decide)) hafter
  exact hfirst

/-- The 7 is lost when the length comes out negative. -/
theorem sevenAndBlanks_lost {n : ℕ} (hlen : toInt (n + 1 : ℕ) < 0) (cdevMajorNumber : ℤ)
    (stale : List UInt8) :
    (∃ s, getMajorNumber 0 cdevMajorNumber (.succeeding (sevenAndBlanks n).content stale) = some s ∧
        s.majorNumber = -1) ∧
      ¬ ReadsExactly (sevenAndBlanks n).second
        (getMajorNumber 0 cdevMajorNumber (.succeeding (sevenAndBlanks n).content stale)) := by
  have hout : ¬ InReach (sevenAndBlanks n).second := by
    intro h
    have hnonneg := h.1
    rw [length_sevenAndBlanks] at hnonneg
    exact absurd hlen (not_lt.mpr hnonneg)
  constructor
  · obtain ⟨looked, -, hrun⟩ := getMajorNumber_eq (sevenAndBlanks n) stale cdevMajorNumber
    rw [if_neg hout] at hrun
    exact ⟨_, hrun, rfl⟩
  · rw [readsExactly_iff]
    rintro (hreach | hlarge)
    · exact hout hreach
    · exact absurd (hlarge 7 (firstNumber_sevenAndBlanks n)) (by decide)

/-- A second line of 2^31 bytes that starts with a 7. -/
theorem long_line_not_read :
    (sevenAndBlanks (2 ^ 31 - 1)).second.length = 2 ^ 31 ∧
      FirstNumber (sevenAndBlanks (2 ^ 31 - 1)).second 7 ∧
      (∃ s, getMajorNumber 0 (-1) (.succeeding (sevenAndBlanks (2 ^ 31 - 1)).content []) =
        some s ∧ s.majorNumber = -1) ∧
      ¬ ReadsExactly (sevenAndBlanks (2 ^ 31 - 1)).second
        (getMajorNumber 0 (-1) (.succeeding (sevenAndBlanks (2 ^ 31 - 1)).content [])) := by
  refine ⟨?_, firstNumber_sevenAndBlanks _, sevenAndBlanks_lost (by decide) (-1) []⟩
  rw [length_sevenAndBlanks, Nat.sub_add_cancel (by decide)]

end LxcUio.Server
