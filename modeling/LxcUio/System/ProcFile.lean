import LxcUio.Proxy.ModuleTable
import LxcUio.Server.MajorNumber
import LxcUio.Server.Main

/-!
# The major number on its way through `/proc`

The proxy prints the major number of its device on the second line of a file, and the server
takes it from there before it does anything else. The ioctl numbers of both are made of it.
-/

namespace LxcUio.Proxy

open LxcUio.Foundation

def cdevName : List UInt8 := ascii "lxc-uio-proxy"

/-- `lxc_uio_proc_show`; `address` is what `%p` makes of `module_table`. -/
def lxcUioProcShow (cdevMajorNumber : ℤ) (t : ModuleTable) (address : List UInt8) :
    List UInt8 :=
  cdevName ++ ascii " \nmajor number [" ++ decimalInt cdevMajorNumber ++
    ascii "] \nmodule_table: \x7baddress [" ++ address ++
    ascii "],table_size [" ++ decimalInt t.tableSize ++
    ascii "], num_entries [" ++ decimalInt t.tableNumEntries ++
    ascii "], table_index [" ++ decimalInt t.tableIndex ++ ascii "] \x7d\n"

end LxcUio.Proxy

namespace LxcUio.System

open LxcUio.Foundation LxcUio.Proxy LxcUio.Server

/-! ## The printed lines -/

/-- The line of the major number. -/
def majorLine (cdevMajorNumber : ℤ) : List UInt8 :=
  ascii "major number [" ++ decimalInt cdevMajorNumber ++ ascii "] " ++ [newline]

def procText (cdevMajorNumber : ℤ) (t : ModuleTable) (address : List UInt8) : TwoLines where
  first := cdevName ++ ascii " " ++ [newline]
  second := majorLine cdevMajorNumber
  more := ascii "module_table: \x7baddress [" ++ address ++
    ascii "],table_size [" ++ decimalInt t.tableSize ++
    ascii "], num_entries [" ++ decimalInt t.tableNumEntries ++
    ascii "], table_index [" ++ decimalInt t.tableIndex ++ ascii "] \x7d\n"
  isFirst := .ended (by decide)
  isSecond := by
    refine .ended fun hmem => ?_
    rcases List.mem_append.mp hmem with hmem | hmem
    · rcases List.mem_append.mp hmem with hmem | hmem
      · exact absurd hmem (by decide)
      · exact newline_not_mem_decimalInt cdevMajorNumber hmem
    · exact absurd hmem (by decide)

/-- They are the text. -/
theorem procText_content (cdevMajorNumber : ℤ) (t : ModuleTable) (address : List UInt8) :
    (procText cdevMajorNumber t address).content = lxcUioProcShow cdevMajorNumber t address := by
  have hname : ascii " \nmajor number [" = ascii " " ++ [newline] ++ ascii "major number [" := by
    decide
  have hmore : ascii "] \nmodule_table: \x7baddress [" =
      ascii "] " ++ [newline] ++ ascii "module_table: \x7baddress [" := by
    decide
  simp only [TwoLines.content, procText, majorLine, lxcUioProcShow, hname, hmore,
    List.append_assoc]

/-- The sign is not part of the number that the line shows. -/
theorem firstNumber_majorLine (x : ℤ) : FirstNumber (majorLine x) x.natAbs := by
  have hafter : ∀ b ∈ (ascii "] " ++ [newline]).head?, ¬ IsDigit b := by
    intro b hb
    have hbracket : (ascii "] " ++ [newline]).head? = some 93 := by decide
    obtain rfl := Option.some.inj (hbracket.symm.trans hb)
    decide
  unfold majorLine decimalInt
  split
  · have hminus : noDigits (ascii "major number [" ++ [45]) = true := by decide
    have hfirst := firstNumber_decimal (not_digit_of_noDigits hminus) hafter x.natAbs
    simpa only [List.append_assoc, List.cons_append, List.nil_append] using hfirst
  · have hbefore : noDigits (ascii "major number [") = true := by decide
    have hfirst := firstNumber_decimal (not_digit_of_noDigits hbefore) hafter x.natAbs
    simpa only [List.append_assoc] using hfirst

theorem length_majorLine_lt {x : ℤ} (h : (x.natAbs : ℤ) ≤ largestInt) :
    (majorLine x).length < 2 ^ 31 := by
  have hdecimal : (decimal x.natAbs).length ≤ 10 := by
    refine length_decimal_le (by decide) ?_
    unfold largestInt at h
    omega
  have hint : (decimalInt x).length ≤ 11 := by
    unfold decimalInt
    split
    · exact Nat.succ_le_succ hdecimal
    · omega
  have hname : (ascii "major number [").length = 14 := by decide
  have htail : (ascii "] " ++ [newline]).length = 3 := by decide
  rw [majorLine, List.append_assoc, List.length_append, List.length_append, hname, htail]
  omega

/-- A printed number arrives without its sign. -/
theorem getMajorNumber_printed {x : ℤ} (h : (x.natAbs : ℤ) ≤ largestInt) (t : ModuleTable)
    (address stale : List UInt8) (cdevMajorNumber : ℤ) :
    ∃ s, getMajorNumber 0 cdevMajorNumber (.succeeding (lxcUioProcShow x t address) stale) =
      some s ∧ s.majorNumber = x.natAbs ∧ s.cdevMajorNumber = x.natAbs := by
  have hfirst := firstNumber_majorLine x
  have hreach : InReach (majorLine x) :=
    inReach_of_short (length_majorLine_lt h) (firstNumber_iff.mp hfirst).1
  obtain ⟨looked, -, hrun⟩ := getMajorNumber_eq (procText x t address) stale cdevMajorNumber
  rw [procText_content] at hrun
  refine ⟨_, hrun, ?_⟩
  show (MajorNumberState.assign _ (if InReach (majorLine x) then acceptedNumber (majorLine x)
    else none)).majorNumber = _ ∧ (MajorNumberState.assign _ (if InReach (majorLine x) then
    acceptedNumber (majorLine x) else none)).cdevMajorNumber = _
  rw [if_pos hreach, acceptedNumber_eq_some.mpr ⟨hfirst, h⟩]
  exact ⟨rfl, rfl⟩

/-! ## The trip -/

/-- **The major number survives the trip.** From a file of two lines the server takes the
number of the second one exactly when the scan reaches it or there is none to take, and from
the printed text it takes the number that was printed. -/
theorem majorNumber_survives_iff (file : TwoLines) (stale : List UInt8) (cdevMajorNumber : ℤ) :
    (ReadsExactly file.second
          (getMajorNumber 0 cdevMajorNumber (.succeeding file.content stale)) ↔
        InReach file.second ∨ ∀ m : ℕ, FirstNumber file.second m → (m : ℤ) > largestInt) ∧
      ∀ major : ℕ, (major : ℤ) ≤ largestInt → ∀ (t : ModuleTable) (address : List UInt8),
        ∃ s, getMajorNumber 0 cdevMajorNumber
            (.succeeding (lxcUioProcShow major t address) stale) = some s ∧
          s.majorNumber = major := by
  constructor
  · exact readsExactly_iff file stale cdevMajorNumber
  · intro major hle t address
    obtain ⟨s, hrun, hnumber, -⟩ :=
      getMajorNumber_printed (x := major) hle t address stale cdevMajorNumber
    exact ⟨s, hrun, hnumber⟩

theorem major_240_survives :
    ReadsExactly (majorLine 240) (getMajorNumber 0 (-1)
        (.succeeding (procText 240 (.atLoad fun _ => default) []).content [])) ∧
      ∃ s, getMajorNumber 0 (-1)
        (.succeeding (lxcUioProcShow 240 (.atLoad fun _ => default) []) []) = some s ∧
        s.majorNumber = 240 := by
  have hdigits : digitRun (majorLine 240) ≠ [] :=
    (firstNumber_iff.mp (firstNumber_majorLine 240)).1
  have hreach : InReach (majorLine 240) :=
    inReach_of_short (length_majorLine_lt (by decide)) hdigits
  obtain ⟨hreads, hprinted⟩ :=
    majorNumber_survives_iff (procText 240 (.atLoad fun _ => default) []) [] (-1)
  exact ⟨hreads.mpr (Or.inl hreach), hprinted 240 (by decide) (.atLoad fun _ => default) []⟩

/-! ## What the server does with it -/

/-- There is a number to take and the scan reaches it. -/
theorem taken_nonneg_iff (line : List UInt8) :
    0 ≤ (if InReach line then acceptedNumber line else none).getD (-1) ↔
      InReach line ∧ ∃ m : ℕ, FirstNumber line m ∧ (m : ℤ) ≤ largestInt := by
  by_cases hreach : InReach line
  · rw [if_pos hreach]
    rcases acceptedNumber_cases line with hnone | ⟨m, hm⟩
    · refine iff_of_false ?_ ?_
      · rw [hnone]
        decide
      · rintro ⟨-, m, hm⟩
        rw [acceptedNumber_eq_some.mpr hm] at hnone
        cases hnone
    · refine iff_of_true ?_ ⟨hreach, m, acceptedNumber_eq_some.mp hm⟩
      rw [hm]
      exact Int.natCast_nonneg m
  · rw [if_neg hreach]
    exact iff_of_false (by decide) fun h => hreach h.1

/-- The server goes on to open `/dev/kvm` exactly when it has got a number. -/
theorem main_goes_on_iff (debugOn : Bool) (mem : ℤ → UuidTableEntry) (file : TwoLines)
    (stale : List UInt8) (cdevMajorNumber : ℤ) :
    (∃ s, getMajorNumber 0 cdevMajorNumber (.succeeding file.content stale) = some s ∧
        mainStep debugOn (MainState.init mem) (.majorNumber s.majorNumber) =
          some { MainState.init mem with pc := .openKvm }) ↔
      InReach file.second ∧ ∃ m : ℕ, FirstNumber file.second m ∧ (m : ℤ) ≤ largestInt := by
  have hstep : ∀ ret : ℤ, mainStep debugOn (MainState.init mem) (.majorNumber ret) =
      some { MainState.init mem with pc := .openKvm } ↔ 0 ≤ ret := by
    intro ret
    constructor
    · intro hmain
      by_contra hneg
      have hpc := congrArg (Option.map MainState.pc) hmain
      simp [mainStep, MainState.init, not_le.mp hneg] at hpc
    · intro hnonneg
      simp [mainStep, MainState.init, not_lt.mpr hnonneg]
  obtain ⟨looked, -, hrun⟩ := getMajorNumber_eq file stale cdevMajorNumber
  rw [← taken_nonneg_iff]
  constructor
  · rintro ⟨s, hs, hmain⟩
    obtain rfl := Option.some.inj (hrun.symm.trans hs)
    rw [hstep, assign_majorNumber] at hmain
    exact hmain
  · intro hnonneg
    refine ⟨_, hrun, ?_⟩
    rw [hstep, assign_majorNumber]
    exact hnonneg

end LxcUio.System
