import Mathlib.Data.Nat.Digits.Lemmas
import Mathlib.Data.List.Induction
import Mathlib.Data.List.TakeWhile

/-!
# Text in C memory

Lines and decimal numbers in sequences of bytes, and the functions of the C library that
read them: `getdelim`, `isdigit` and `strtol`, in the C locale.

A pointer into a block is the list of the bytes from there to the end of the block. A
function that would read behind the block has no result.
-/

namespace LxcUio.Foundation

/-! ## Decimal numbers -/

def IsDigit (b : UInt8) : Prop := 48 ≤ b.toNat ∧ b.toNat ≤ 57

instance : DecidablePred IsDigit := fun b => inferInstanceAs (Decidable (48 ≤ b.toNat ∧ _))

def digitValue (b : UInt8) : ℕ := b.toNat - 48

/-- The value of digits, the most significant first. -/
def decimalValue (run : List UInt8) : ℕ := Nat.ofDigits 10 (run.map digitValue).reverse

/-- The number that a text shows first: the value of the maximal run of digits that starts
at its first digit. -/
inductive FirstNumber : List UInt8 → ℕ → Prop where
  | intro {before run after : List UInt8} (hbefore : ∀ b ∈ before, ¬ IsDigit b)
      (hne : run ≠ []) (hrun : ∀ b ∈ run, IsDigit b)
      (hafter : ∀ b ∈ after.head?, ¬ IsDigit b) :
      FirstNumber (before ++ run ++ after) (decimalValue run)

/-- That run, or no digits. -/
def digitRun (text : List UInt8) : List UInt8 :=
  (text.dropWhile fun b => ¬ IsDigit b).takeWhile fun b => IsDigit b

/-- The test that a text has no digits. -/
def noDigits (text : List UInt8) : Bool := text.all fun b => ¬ IsDigit b

theorem not_digit_of_noDigits {text : List UInt8} (h : noDigits text = true) :
    ∀ b ∈ text, ¬ IsDigit b := by
  intro b hb
  have hall := List.all_eq_true.mp h b hb
  simpa using hall

theorem takeWhile_digits {run after : List UInt8} (hrun : ∀ b ∈ run, IsDigit b)
    (hafter : ∀ b ∈ after.head?, ¬ IsDigit b) :
    (run ++ after).takeWhile (fun b => IsDigit b) = run := by
  rw [List.takeWhile_append_of_pos fun b hb => decide_eq_true (hrun b hb)]
  cases after with
  | nil => rw [List.takeWhile_nil, List.append_nil]
  | cons b after =>
      have hb : ¬ IsDigit b := hafter b rfl
      rw [List.takeWhile_cons_of_neg (by simpa using hb), List.append_nil]

/-- What stands in front of the first digit is skipped. -/
theorem digitRun_skip {before : List UInt8} (hbefore : ∀ b ∈ before, ¬ IsDigit b)
    (rest : List UInt8) : digitRun (before ++ rest) = digitRun rest := by
  rw [digitRun, List.dropWhile_append_of_pos fun b hb => decide_eq_true (hbefore b hb), digitRun]

theorem digitRun_cons {b : UInt8} (hb : IsDigit b) (rest : List UInt8) :
    digitRun (b :: rest) = (b :: rest).takeWhile fun b => IsDigit b := by
  rw [digitRun, List.dropWhile_cons_of_neg (by simpa using hb)]

theorem digitRun_eq_nil {text : List UInt8} (h : ∀ b ∈ text, ¬ IsDigit b) :
    digitRun text = [] := by
  rw [← List.append_nil text, digitRun_skip h]
  rfl

theorem digitRun_append {before run after : List UInt8} (hbefore : ∀ b ∈ before, ¬ IsDigit b)
    (hne : run ≠ []) (hrun : ∀ b ∈ run, IsDigit b) (hafter : ∀ b ∈ after.head?, ¬ IsDigit b) :
    digitRun (before ++ run ++ after) = run := by
  cases run with
  | nil => exact absurd rfl hne
  | cons d run =>
      rw [List.append_assoc, digitRun_skip hbefore, List.cons_append,
        digitRun_cons (hrun d List.mem_cons_self), ← List.cons_append]
      exact takeWhile_digits hrun hafter

/-- A text has digits before its first one, or none at all. -/
theorem digits_split (text : List UInt8) : (∀ b ∈ text, ¬ IsDigit b) ∨
    ∃ before d rest, text = before ++ d :: rest ∧ (∀ b ∈ before, ¬ IsDigit b) ∧ IsDigit d := by
  induction text with
  | nil => exact Or.inl fun b hb => nomatch hb
  | cons b text ih =>
      by_cases hb : IsDigit b
      · exact Or.inr ⟨[], b, text, rfl, List.forall_mem_nil _, hb⟩
      · rcases ih with hnone | ⟨before, d, rest, rfl, hbefore, hd⟩
        · exact Or.inl (List.forall_mem_cons.mpr ⟨hb, hnone⟩)
        · exact Or.inr ⟨b :: before, d, rest, rfl, List.forall_mem_cons.mpr ⟨hb, hbefore⟩, hd⟩

theorem digitRun_ne_nil {before rest : List UInt8} {d : UInt8}
    (hbefore : ∀ b ∈ before, ¬ IsDigit b) (hd : IsDigit d) :
    digitRun (before ++ d :: rest) ≠ [] := by
  rw [digitRun_skip hbefore, digitRun_cons hd, List.takeWhile_cons, if_pos (decide_eq_true hd)]
  exact List.cons_ne_nil d _

/-- The run is maximal. -/
theorem head?_dropWhile_digits (text : List UInt8) :
    ∀ b ∈ (text.dropWhile fun b => IsDigit b).head?, ¬ IsDigit b := by
  intro b hb
  have hnot := List.head?_dropWhile_not (fun b => decide (IsDigit b)) text
  rw [Option.mem_def.mp hb] at hnot
  simpa using hnot

theorem firstNumber_iff {text : List UInt8} {n : ℕ} :
    FirstNumber text n ↔ digitRun text ≠ [] ∧ decimalValue (digitRun text) = n := by
  constructor
  · rintro ⟨hbefore, hne, hrun, hafter⟩
    rw [digitRun_append hbefore hne hrun hafter]
    exact ⟨hne, rfl⟩
  · rintro ⟨hne, rfl⟩
    rcases digits_split text with hnone | ⟨before, d, rest, rfl, hbefore, hd⟩
    · exact absurd (digitRun_eq_nil hnone) hne
    · have hrun : ∀ b ∈ digitRun (before ++ d :: rest), IsDigit b := by
        intro b hb
        have hdigit := List.mem_takeWhile_imp hb
        simpa using hdigit
      have hsplit : before ++ d :: rest = before ++ digitRun (before ++ d :: rest) ++
          (d :: rest).dropWhile fun b => IsDigit b := by
        rw [digitRun_skip hbefore, digitRun_cons hd, List.append_assoc,
          List.takeWhile_append_dropWhile]
      have hfirst := FirstNumber.intro hbefore hne hrun (head?_dropWhile_digits (d :: rest))
      rwa [← hsplit] at hfirst

instance (text : List UInt8) (n : ℕ) : Decidable (FirstNumber text n) :=
  decidable_of_iff _ firstNumber_iff.symm

/-! ## Printed text -/

/-- The bytes of a text in ASCII. -/
def ascii (s : String) : List UInt8 := s.toList.map fun c => UInt8.ofNat c.toNat

def digitByte (d : ℕ) : UInt8 := UInt8.ofNat (48 + d)

def decimal (n : ℕ) : List UInt8 :=
  if n = 0 then [48] else (Nat.digits 10 n).reverse.map digitByte

/-- `%d` and `%lld`. -/
def decimalInt (x : ℤ) : List UInt8 :=
  if x < 0 then 45 :: decimal x.natAbs else decimal x.natAbs

theorem toNat_digitByte {d : ℕ} (h : d < 10) : (digitByte d).toNat = 48 + d := by
  rw [digitByte, UInt8.toNat_ofNat']
  omega

theorem isDigit_digitByte {d : ℕ} (h : d < 10) : IsDigit (digitByte d) := by
  rw [IsDigit, toNat_digitByte h]
  omega

theorem digitValue_digitByte {d : ℕ} (h : d < 10) : digitValue (digitByte d) = d := by
  rw [digitValue, toNat_digitByte h]
  omega

theorem digit_lt {n d : ℕ} (h : d ∈ Nat.digits 10 n) : d < 10 :=
  Nat.digits_lt_base (by decide) h

theorem isDigit_decimal (n : ℕ) : ∀ b ∈ decimal n, IsDigit b := by
  intro b hb
  unfold decimal at hb
  split at hb
  · rw [List.mem_singleton.mp hb]
    decide
  · obtain ⟨d, hd, rfl⟩ := List.mem_map.mp hb
    exact isDigit_digitByte (digit_lt (List.mem_reverse.mp hd))

theorem decimal_ne_nil (n : ℕ) : decimal n ≠ [] := by
  unfold decimal
  split
  · exact List.cons_ne_nil _ _
  · rename_i hn
    simpa [Nat.digits_eq_nil_iff_eq_zero] using hn

/-- What is printed has the value that was printed. -/
theorem decimalValue_decimal (n : ℕ) : decimalValue (decimal n) = n := by
  unfold decimal
  split
  · rename_i hn
    rw [hn]
    rfl
  · have hvalues : ((Nat.digits 10 n).reverse.map digitByte).map digitValue =
        (Nat.digits 10 n).reverse := by
      rw [List.map_map]
      refine (List.map_congr_left fun d hd => ?_).trans (List.map_id _)
      exact digitValue_digitByte (digit_lt (List.mem_reverse.mp hd))
    rw [decimalValue, hvalues, List.reverse_reverse, Nat.ofDigits_digits]

theorem length_decimal_le {n k : ℕ} (hk : 0 < k) (h : n < 10 ^ k) : (decimal n).length ≤ k := by
  unfold decimal
  split
  · exact hk
  · rw [List.length_map, List.length_reverse]
    exact (Nat.digits_length_le_iff (by decide) n).mpr h

/-- A printed number is read back, whatever stands around it. -/
theorem firstNumber_decimal {before after : List UInt8} (hbefore : ∀ b ∈ before, ¬ IsDigit b)
    (hafter : ∀ b ∈ after.head?, ¬ IsDigit b) (n : ℕ) :
    FirstNumber (before ++ decimal n ++ after) n := by
  have hfirst := FirstNumber.intro hbefore (decimal_ne_nil n) (isDigit_decimal n) hafter
  rwa [decimalValue_decimal] at hfirst

/-! ## Lines -/

def newline : UInt8 := 10

/-- `line` is a line and `rest` follows it: its newline is part of it, and only the last
line of a file may have none. -/
inductive IsLine : List UInt8 → List UInt8 → Prop where
  | ended {text rest : List UInt8} (h : newline ∉ text) : IsLine (text ++ [newline]) rest
  | last {text : List UInt8} (hne : text ≠ []) (h : newline ∉ text) : IsLine text []

/-- The bytes up to the first newline, and those behind it. -/
def cutLine : List UInt8 → List UInt8 × List UInt8
  | [] => ([], [])
  | b :: input =>
      if b = newline then ([b], input) else (b :: (cutLine input).1, (cutLine input).2)

/-- `getdelim(&line, &size, '\n', fp)` on what is left of the file: the line and what is then
left, or a failure, at the end of the file or when the line cannot be stored. -/
def getdelim (stored : Bool) (input : List UInt8) : Option (List UInt8 × List UInt8) :=
  if input = [] ∨ stored = false then none else some (cutLine input)

/-- Nothing that is printed for a number ends a line. -/
theorem newline_not_mem_decimalInt (x : ℤ) : newline ∉ decimalInt x := by
  have hdigits : ∀ n, newline ∉ decimal n := fun n hmem =>
    absurd (isDigit_decimal n newline hmem) (by decide)
  unfold decimalInt
  split
  · exact List.not_mem_cons_of_ne_of_not_mem (by decide) (hdigits _)
  · exact hdigits _

theorem IsLine.ne_nil {line rest : List UInt8} (h : IsLine line rest) : line ≠ [] := by
  cases h with
  | ended h => simp
  | last hne h => exact hne

theorem cutLine_ended {text : List UInt8} (h : newline ∉ text) (rest : List UInt8) :
    cutLine (text ++ newline :: rest) = (text ++ [newline], rest) := by
  induction text with
  | nil => exact if_pos rfl
  | cons b text ih =>
      obtain ⟨hb, htext⟩ := List.ne_and_not_mem_of_not_mem_cons h
      rw [List.cons_append, cutLine, if_neg (Ne.symm hb), ih htext]
      rfl

theorem cutLine_last {text : List UInt8} (h : newline ∉ text) : cutLine text = (text, []) := by
  induction text with
  | nil => rfl
  | cons b text ih =>
      obtain ⟨hb, htext⟩ := List.ne_and_not_mem_of_not_mem_cons h
      rw [cutLine, if_neg (Ne.symm hb), ih htext]

theorem IsLine.cons {b : UInt8} (hb : b ≠ newline) {line rest : List UInt8}
    (h : IsLine line rest) : IsLine (b :: line) rest := by
  cases h with
  | ended h => exact .ended (List.not_mem_cons_of_ne_of_not_mem hb.symm h)
  | last hne h =>
      exact .last (List.cons_ne_nil _ _) (List.not_mem_cons_of_ne_of_not_mem hb.symm h)

theorem isLine_cutLine {input : List UInt8} (hne : input ≠ []) :
    IsLine (cutLine input).1 (cutLine input).2 ∧
      (cutLine input).1 ++ (cutLine input).2 = input := by
  induction input with
  | nil => exact absurd rfl hne
  | cons b input ih =>
      unfold cutLine
      split
      · rename_i hb
        subst hb
        exact ⟨.ended List.not_mem_nil, rfl⟩
      · rename_i hb
        by_cases hinput : input = []
        · subst hinput
          refine ⟨.last (List.cons_ne_nil _ _) ?_, rfl⟩
          exact List.not_mem_cons_of_ne_of_not_mem (Ne.symm hb) List.not_mem_nil
        · obtain ⟨hline, hsplit⟩ := ih hinput
          exact ⟨hline.cons hb, congrArg (b :: ·) hsplit⟩

/-- What `getdelim` cuts off is a line. -/
theorem isLine_of_getdelim {input line rest : List UInt8}
    (h : getdelim true input = some (line, rest)) : IsLine line rest ∧ line ++ rest = input := by
  unfold getdelim at h
  split at h
  · cases h
  · rename_i hnot
    have hcut := isLine_cutLine (not_or.mp hnot).1
    rwa [Option.some.inj h] at hcut

theorem getdelim_line {line rest : List UInt8} (h : IsLine line rest) :
    getdelim true (line ++ rest) = some (line, rest) := by
  have hne : ¬ (line ++ rest = [] ∨ true = false) := by
    have hline := h.ne_nil
    simp [hline]
  rw [getdelim, if_neg hne]
  cases h with
  | ended h => rw [List.append_assoc, List.singleton_append, cutLine_ended h]
  | last hne h => rw [List.append_nil, cutLine_last h]

/-! ## `isdigit` and `strtol` -/

/-- The value of a byte as a `char`, which is signed. -/
def toChar (b : UInt8) : ℤ := b.toInt8.toInt

/-- Looked up in a table that reaches from -128 to 255. -/
def isdigit (c : ℤ) : Bool := 48 ≤ c ∧ c ≤ 57

def IsSpace (b : UInt8) : Prop := b.toNat = 32 ∨ 9 ≤ b.toNat ∧ b.toNat ≤ 13

instance : DecidablePred IsSpace := fun b => inferInstanceAs (Decidable (b.toNat = 32 ∨ _))

def longMax : ℤ := 2 ^ 63 - 1

def longMin : ℤ := -2 ^ 63

def ERANGE : ℤ := 34

def EINVAL : ℤ := 22

/-- The sign in front of a number, and what follows it. -/
def cutSign : List UInt8 → Bool × List UInt8
  | [] => (false, [])
  | b :: s => if b = 45 then (true, s) else if b = 43 then (false, s) else (false, b :: s)

/-- A number as a `long`, and what `errno` is set to if it is none. -/
def clampLong (x : ℤ) : ℤ × Option ℤ :=
  if x > longMax then (longMax, some ERANGE)
  else if x < longMin then (longMin, some ERANGE)
  else (x, none)

/-- `strtol(s, NULL, 10)`: the number, and what `errno` is set to, if it is. The number ends
in front of the first byte that is no digit, which has to be in the block. -/
def strtol (s : List UInt8) : Option (ℤ × Option ℤ) :=
  let (negative, s) := cutSign (s.dropWhile fun b => IsSpace b)
  let run := s.takeWhile fun b => IsDigit b
  if run.length = s.length then none
  else
    let n : ℕ := run.foldl (fun acc b => 10 * acc + digitValue b) 0
    some (clampLong (if negative = true then -n else n))

theorem clampLong_errno {x e : ℤ} (h : (clampLong x).2 = some e) : e = ERANGE := by
  unfold clampLong at h
  split at h
  · exact (Option.some.inj h).symm
  · split at h
    · exact (Option.some.inj h).symm
    · cases h

/-- `ERANGE` is all that is ever set. -/
theorem strtol_errno {s : List UInt8} {n e : ℤ} (h : strtol s = some (n, some e)) :
    e = ERANGE := by
  unfold strtol at h
  dsimp only at h
  split at h
  · cases h
  · exact clampLong_errno (congrArg Prod.snd (Option.some.inj h))

theorem isdigit_toChar (b : UInt8) : isdigit (toChar b) = true ↔ IsDigit b := by
  have hb := b.toNat_lt
  have hchar : toChar b = if 2 * b.toNat < 256 then (b.toNat : ℤ) else b.toNat - 256 :=
    BitVec.toInt_eq_toNat_cond b.toBitVec
  rw [isdigit, decide_eq_true_eq, IsDigit, hchar]
  split <;> omega

/-- The digits that are read one after the other make up the value. -/
theorem foldl_digits (run : List UInt8) :
    run.foldl (fun acc b => 10 * acc + digitValue b) 0 = decimalValue run := by
  induction run using List.reverseRecOn with
  | nil => rfl
  | append_singleton run b ih =>
      rw [List.foldl_append, List.foldl_cons, List.foldl_nil, ih, decimalValue, decimalValue,
        List.map_append, List.reverse_append, List.map_singleton, List.reverse_singleton,
        List.singleton_append, Nat.ofDigits_cons, add_comm]

/-- A run of digits ends where the text does, if no digit follows. -/
theorem takeWhile_digits_append (text : List UInt8) {z : UInt8} (hz : ¬ IsDigit z)
    (stale : List UInt8) : (text ++ z :: stale).takeWhile (fun b => IsDigit b) =
      text.takeWhile fun b => IsDigit b := by
  have hnone : (z :: stale).takeWhile (fun b => IsDigit b) = [] := by
    rw [List.takeWhile_cons, if_neg (by simpa using hz)]
  rw [List.takeWhile_append, hnone, List.append_nil]
  split
  · rename_i hlen
    exact ((List.takeWhile_prefix _).eq_of_length hlen).symm
  · rfl

/-- From a digit on, in a block that does not end with the run. -/
theorem strtol_of_digit {d z : UInt8} (hd : IsDigit d) (hz : ¬ IsDigit z)
    (rest stale : List UInt8) :
    strtol (d :: rest ++ z :: stale) =
      some (clampLong (decimalValue (digitRun (d :: rest)))) := by
  have hskip : ∀ s : List UInt8, (d :: s).dropWhile (fun b => IsSpace b) = d :: s := by
    intro s
    have hspace : ¬ IsSpace d := by
      unfold IsSpace
      unfold IsDigit at hd
      omega
    rw [List.dropWhile_cons, if_neg (by simpa using hspace)]
  have hsign : ∀ s : List UInt8, cutSign (d :: s) = (false, d :: s) := by
    intro s
    have hminus : d ≠ 45 := by
      rintro rfl
      exact absurd hd (by decide)
    have hplus : d ≠ 43 := by
      rintro rfl
      exact absurd hd (by decide)
    rw [cutSign, if_neg hminus, if_neg hplus]
  have hrun : (d :: rest ++ z :: stale).takeWhile (fun b => IsDigit b) = digitRun (d :: rest) := by
    rw [takeWhile_digits_append _ hz, digitRun_cons hd]
  have hends : (digitRun (d :: rest)).length ≠ (d :: rest ++ z :: stale).length := by
    have hle : ((d :: rest).takeWhile fun b => IsDigit b).length ≤ (d :: rest).length :=
      (List.takeWhile_prefix _).length_le
    have hlt : (d :: rest).length < (d :: rest ++ z :: stale).length := by
      rw [List.length_append]
      exact Nat.lt_add_of_pos_right (Nat.succ_pos _)
    rw [digitRun_cons hd]
    exact (lt_of_le_of_lt hle hlt).ne
  rw [List.cons_append] at hrun hends ⊢
  simp only [strtol, hskip, hsign, hrun, if_neg hends, foldl_digits, Bool.false_eq_true,
    if_false]

end LxcUio.Foundation
