import Ironclaw.Lib.Text
import Mathlib.Tactic.Ring

/-!
# Dates and their texts

The Gregorian calendar, continued in both directions, and the texts of
instants in universal time as RFC 3339 writes them, in whole seconds.

Days are counted from the first of January of the year one.  Cycles of 400,
100, 4 and 1 years give the year of a day; what the last cycle of a group may
have more is cut off.  The text of an instant is read back as the same instant
for the years from 0 to 9999, and not at all for later ones.  Dates written in
digits alone are ordered as the days, for these years.
-/

namespace Ironclaw.Lib.Calendar

open Text

/-! ## Years -/

def isLeap (year : Int) : Bool :=
  year % 4 = 0 ∧ (year % 100 ≠ 0 ∨ year % 400 = 0)

/-- The first day of a year. -/
def yearStart (year : Int) : Int :=
  365 * (year - 1) + (year - 1) / 4 - (year - 1) / 100 + (year - 1) / 400

/-- The year of a day, and the number of the day in it. -/
def yearOf (day : Int) : Int × Nat :=
  let inCycle := day % 146097
  let centuries := min (inCycle / 36524) 3
  let inCentury := inCycle - 36524 * centuries
  let fours := inCentury / 1461
  let inFour := inCentury - 1461 * fours
  let years := min (inFour / 365) 3
  (1 + 400 * (day / 146097) + 100 * centuries + 4 * fours + years,
    (inFour - 365 * years).toNat)

theorem yearStart_cycles {cycles centuries fours years : Int}
    (centuryRange : 0 ≤ centuries ∧ centuries ≤ 3)
    (fourRange : 0 ≤ fours ∧ fours ≤ 24) (yearRange : 0 ≤ years ∧ years ≤ 3) :
    yearStart (1 + 400 * cycles + 100 * centuries + 4 * fours + years) =
      146097 * cycles + 36524 * centuries + 1461 * fours + 365 * years := by
  rw [yearStart]
  omega

/-- The cycles of a day, and what is left of it. -/
theorem yearOf_cycles (day : Int) :
    ∃ cycles centuries fours years number : Int,
      (0 ≤ centuries ∧ centuries ≤ 3) ∧ (0 ≤ fours ∧ fours ≤ 24) ∧
        (0 ≤ years ∧ years ≤ 3) ∧ 0 ≤ number ∧ (number < 365 ∨
            number = 365 ∧ years = 3 ∧ (fours < 24 ∨ centuries = 3)) ∧
          day = 146097 * cycles + 36524 * centuries + 1461 * fours +
            365 * years + number ∧ yearOf day =
            (1 + 400 * cycles + 100 * centuries + 4 * fours + years,
              number.toNat) := by
  have cycle : 0 ≤ day % 146097 ∧ day % 146097 < 146097 := by omega
  have whole : day = 146097 * (day / 146097) + day % 146097 := by omega
  have century : ∀ inCycle : Int, 0 ≤ inCycle → inCycle < 146097 →
      0 ≤ min (inCycle / 36524) 3 ∧ min (inCycle / 36524) 3 ≤ 3 ∧
        0 ≤ inCycle - 36524 * min (inCycle / 36524) 3 ∧
          (inCycle - 36524 * min (inCycle / 36524) 3 < 36524 ∨
            min (inCycle / 36524) 3 = 3 ∧
              inCycle - 36524 * min (inCycle / 36524) 3 = 36524) := by
    omega
  have four : ∀ inCentury : Int, 0 ≤ inCentury → inCentury ≤ 36524 →
      0 ≤ inCentury / 1461 ∧ inCentury / 1461 ≤ 24 ∧
        0 ≤ inCentury - 1461 * (inCentury / 1461) ∧
          inCentury - 1461 * (inCentury / 1461) < 1461 := by
    omega
  have single : ∀ inFour : Int, 0 ≤ inFour → inFour < 1461 →
      0 ≤ min (inFour / 365) 3 ∧ min (inFour / 365) 3 ≤ 3 ∧
        0 ≤ inFour - 365 * min (inFour / 365) 3 ∧
          (inFour - 365 * min (inFour / 365) 3 < 365 ∨
            min (inFour / 365) 3 = 3 ∧
              inFour - 365 * min (inFour / 365) 3 = 365) := by
    omega
  have first := century _ cycle.1 cycle.2
  have second := four _ first.2.2.1 (by omega)
  have third := single _ second.2.2.1 second.2.2.2
  refine ⟨_, _, _, _, _, ⟨first.1, first.2.1⟩, ⟨second.1, second.2.1⟩,
    ⟨third.1, third.2.1⟩, third.2.2.1, ?_, ?_, rfl⟩
  · rcases third.2.2.2 with small | ⟨last, full⟩
    · exact Or.inl small
    · refine Or.inr ⟨full, last, ?_⟩
      omega
  · omega

/-- A day lies in its year. -/
theorem yearOf_spec (day : Int) :
    yearStart (yearOf day).1 + (yearOf day).2 = day ∧
      (yearOf day).2 < if isLeap (yearOf day).1 then 366 else 365 := by
  rcases yearOf_cycles day with ⟨cycles, centuries, fours, years, number,
    centuryRange, fourRange, yearRange, nonneg, range, sum, equal⟩
  rw [equal]
  constructor
  · rw [yearStart_cycles centuryRange fourRange yearRange, sum]
    dsimp only
    omega
  · dsimp only
    split
    · omega
    · rename_i common
      rw [isLeap, decide_eq_true_eq] at common
      omega

/-! ## Months -/

def monthLengths (leap : Bool) : List Nat :=
  [31, if leap then 29 else 28, 31, 30, 31, 30, 31, 31, 30, 31, 30, 31]

/-- The interval in which a number lies, and how far it lies in it. -/
def cut : List Nat → Nat → Nat × Nat
  | [], number => (0, number)
  | length :: later, number =>
    if number < length then (0, number)
    else ((cut later (number - length)).1 + 1,
      (cut later (number - length)).2)

theorem cut_sum (lengths : List Nat) (number : Nat) :
    (lengths.take (cut lengths number).1).sum + (cut lengths number).2 =
      number := by
  induction lengths generalizing number with
  | nil => simp [cut]
  | cons length later induction =>
    rw [cut]
    split
    · simp
    · rename_i large
      have before := induction (number - length)
      rw [List.take_succ_cons, List.sum_cons]
      omega

theorem cut_inside
    {lengths : List Nat} {number : Nat} (inside : number < lengths.sum) :
    ∃ length, lengths[(cut lengths number).1]? = some length ∧
      (cut lengths number).2 < length := by
  induction lengths generalizing number with
  | nil => exact absurd inside (Nat.not_lt_zero _)
  | cons length later induction =>
    rw [List.sum_cons] at inside
    rw [cut]
    split
    · next small => exact ⟨length, rfl, small⟩
    · exact @induction (number - length) (by omega)

structure Date where
  year : Int
  month : Nat
  day : Nat
deriving DecidableEq

def dateOf (day : Int) : Date :=
  let (year, number) := yearOf day
  let (month, rest) := cut (monthLengths (isLeap year)) number
  ⟨year, month + 1, rest + 1⟩

def dayOf (date : Date) : Int :=
  yearStart date.year +
    ((monthLengths (isLeap date.year)).take (date.month - 1)).sum +
      (date.day - 1)

/-- The days that the calendar has. -/
def Date.valid (date : Date) : Bool :=
  1 ≤ date.month ∧ 1 ≤ date.day ∧
    ((monthLengths (isLeap date.year))[date.month - 1]?).any
      (date.day ≤ ·)

theorem dayOf_dateOf (day : Int) : dayOf (dateOf day) = day := by
  have year := (yearOf_spec day).1
  have month := cut_sum (monthLengths (isLeap (yearOf day).1)) (yearOf day).2
  simp only [dateOf, dayOf, Nat.add_sub_cancel]
  omega

theorem valid_dateOf (day : Int) : (dateOf day).valid = true := by
  have range := (yearOf_spec day).2
  have total : (monthLengths (isLeap (yearOf day).1)).sum =
      if isLeap (yearOf day).1 then 366 else 365 := by
    cases isLeap (yearOf day).1 <;> rfl
  rcases cut_inside (total ▸ range) with ⟨length, found, small⟩
  rw [Date.valid, decide_eq_true_eq]
  refine ⟨Nat.le_add_left _ _, Nat.le_add_left _ _, ?_⟩
  simp only [dateOf, Nat.add_sub_cancel, found, Option.any_some]
  exact decide_eq_true small

/-! ## Texts -/

/-- Seconds from the first day of the calendar to the Unix epoch. -/
def epoch : Int := 62135596800

/-- The text of a year: four digits at least. -/
def yearText (year : Int) : List Char :=
  if year < 0 then '-' :: Text.padded 4 year.natAbs
  else Text.padded 4 year.natAbs

/-- The text of an instant, in seconds since the Unix epoch. -/
def formatChars (seconds : Int) : List Char :=
  let date := dateOf ((seconds + epoch) / 86400)
  let rest := ((seconds + epoch) % 86400).toNat
  yearText date.year ++ '-' :: (Text.padded 2 date.month ++
    '-' :: (Text.padded 2 date.day ++ 'T' :: (Text.padded 2 (rest / 3600) ++
        ':' :: (Text.padded 2 (rest / 60 % 60) ++
          ':' :: (Text.padded 2 (rest % 60) ++ ['Z'])))))

def format (seconds : Int) : String := String.ofList (formatChars seconds)

/-- Read a number of so many digits. -/
def field (width : Nat) (text : List Char) : Option (Nat × List Char) :=
  if text.length < width then none
  else (Text.parseDigits (text.take width)).map fun number =>
    (number, text.drop width)

/-- Read one character. -/
def expect (symbol : Char) : List Char → Option (List Char)
  | [] => none
  | first :: rest => if first = symbol then some rest else none

/-- The instant of a text, in seconds since the Unix epoch. -/
def parseChars (text : List Char) : Option Int := do
  let (year, text) ← field 4 text
  let text ← expect '-' text
  let (month, text) ← field 2 text
  let text ← expect '-' text
  let (day, text) ← field 2 text
  let text ← expect 'T' text
  let (hour, text) ← field 2 text
  let text ← expect ':' text
  let (minute, text) ← field 2 text
  let text ← expect ':' text
  let (second, text) ← field 2 text
  let text ← expect 'Z' text
  let date : Date := ⟨year, month, day⟩
  if text = [] ∧ date.valid ∧ hour ≤ 23 ∧ minute ≤ 59 ∧ second ≤ 59 then
    some (86400 * dayOf date + 3600 * hour + 60 * minute + second - epoch)
  else none

def parse (text : String) : Option Int := parseChars text.toList

theorem field_padded {width number : Nat} (positive : 0 < width)
    (fits : number < 10 ^ width) (rest : List Char) :
    field width (padded width number ++ rest) = some (number, rest) := by
  have length := length_padded positive fits
  rw [field, if_neg (by rw [List.length_append]; omega),
    List.take_left' length, List.drop_left' length,
    parseDigits_padded]
  rfl

theorem bind_field {Result : Type} {width number : Nat} (positive : 0 < width)
    (fits : number < 10 ^ width) (rest : List Char)
    (next : Nat × List Char → Option Result) :
    (field width (Text.padded width number ++ rest) >>= next) =
      next (number, rest) := by
  rw [field_padded positive fits]
  rfl

theorem bind_expect {Result : Type} (symbol : Char) (rest : List Char)
    (next : List Char → Option Result) :
    (expect symbol (symbol :: rest) >>= next) = next rest := by
  rw [expect, if_pos rfl]
  rfl

/-- The parts of a date have two digits. -/
theorem dateOf_digits (day : Int) :
    (dateOf day).month < 10 ^ 2 ∧ (dateOf day).day < 10 ^ 2 := by
  have valid := valid_dateOf day
  generalize dateOf day = date at valid
  rw [Date.valid, decide_eq_true_eq] at valid
  rcases valid with ⟨_, _, length⟩
  have short : ∀ length ∈ monthLengths (isLeap date.year), length ≤ 31 := by
    cases isLeap date.year <;> decide
  cases found : (monthLengths (isLeap date.year))[date.month - 1]? with
  | none =>
    rw [found] at length
    cases length
  | some bound =>
    rw [found, Option.any_some, decide_eq_true_eq] at length
    have index := (List.getElem?_eq_some_iff.mp found).1
    have few := short bound (List.mem_of_getElem? found)
    have twelve : (monthLengths (isLeap date.year)).length = 12 := rfl
    omega

/-- The text of an instant is read back, for years of four digits. -/
theorem parse_format
    {seconds : Int} (nonneg : 0 ≤ (dateOf ((seconds + epoch) / 86400)).year)
    (digits : (dateOf ((seconds + epoch) / 86400)).year ≤ 9999) :
    parse (format seconds) = some seconds := by
  rcases dateOf_digits ((seconds + epoch) / 86400) with ⟨month, day⟩
  have valid := valid_dateOf ((seconds + epoch) / 86400)
  have number := dayOf_dateOf ((seconds + epoch) / 86400)
  rw [parse, format, String.toList_ofList, formatChars, parseChars, yearText]
  dsimp only
  generalize dateOf ((seconds + epoch) / 86400) = date at *
  have rest : ((seconds + epoch) % 86400).toNat < 86400 := by omega
  generalize clock : ((seconds + epoch) % 86400).toNat = inDay at rest
  rw [if_neg (not_lt.mpr nonneg)]
  have two : (0 : Nat) < 2 := by decide
  have same : (⟨date.year.natAbs, date.month, date.day⟩ : Date) = date := by
    rcases date with ⟨year, _, _⟩
    dsimp only at nonneg
    rw [Int.natAbs_of_nonneg nonneg]
  have year : date.year.natAbs < 10 ^ 4 := by omega
  have hour : inDay / 3600 < 10 ^ 2 := by omega
  have minute : inDay / 60 % 60 < 10 ^ 2 := by omega
  have second : inDay % 60 < 10 ^ 2 := by omega
  apply (bind_field (by decide) year _ _).trans
  apply (bind_expect _ _ _).trans
  apply (bind_field two month _ _).trans
  apply (bind_expect _ _ _).trans
  apply (bind_field two day _ _).trans
  apply (bind_expect _ _ _).trans
  apply (bind_field two hour _ _).trans
  apply (bind_expect _ _ _).trans
  apply (bind_field two minute _ _).trans
  apply (bind_expect _ _ _).trans
  apply (bind_field two second _ _).trans
  apply (bind_expect _ _ _).trans
  dsimp only
  rw [same, if_pos ⟨rfl, valid, by omega, by omega, by omega⟩, number,
    Option.some.injEq]
  omega

/-- The instants of the years one to 9999. -/
theorem year_range {seconds : Int} (lower : -epoch ≤ seconds)
    (upper : seconds < 253402300800) :
    0 ≤ (dateOf ((seconds + epoch) / 86400)).year ∧
      (dateOf ((seconds + epoch) / 86400)).year ≤ 9999 := by
  rcases yearOf_cycles ((seconds + epoch) / 86400) with
    ⟨cycles, centuries, fours, years, number, centuryRange, fourRange,
      yearRange, nonneg, range, sum, equal⟩
  have year : (dateOf ((seconds + epoch) / 86400)).year =
      1 + 400 * cycles + 100 * centuries + 4 * fours + years :=
    congrArg Prod.fst equal
  rw [year]
  rw [epoch] at lower sum
  omega

/-! ## Order -/

theorem yearStart_mono {earlier later : Int} (order : earlier ≤ later) :
    yearStart earlier ≤ yearStart later := by
  rw [yearStart, yearStart]
  omega

theorem yearStart_succ (year : Int) : yearStart (year + 1) =
      yearStart year + if isLeap year then 366 else 365 := by
  rw [yearStart, yearStart]
  split
  · rename_i leap
    rw [isLeap, decide_eq_true_eq] at leap
    omega
  · rename_i common
    rw [isLeap, decide_eq_true_eq] at common
    omega

/-- A day is before the next year. -/
theorem lt_yearStart_succ (day : Int) :
    day < yearStart ((yearOf day).1 + 1) := by
  rcases yearOf_spec day with ⟨sum, range⟩
  rw [yearStart_succ]
  split at range
  · rename_i leap
    rw [if_pos leap]
    omega
  · rename_i common
    rw [if_neg common]
    omega

/-- A later day is later in its year, or in a later year. -/
theorem yearOf_lt {first second : Int} (less : first < second) :
    (yearOf first).1 < (yearOf second).1 ∨
      (yearOf first).1 = (yearOf second).1 ∧
        (yearOf first).2 < (yearOf second).2 := by
  have firstSum := (yearOf_spec first).1
  have secondSum := (yearOf_spec second).1
  rcases lt_trichotomy (yearOf first).1 (yearOf second).1 with
    before | same | beyond
  · exact Or.inl before
  · rw [same] at firstSum
    exact Or.inr ⟨same, by omega⟩
  · have start := yearStart_mono (Int.add_one_le_of_lt beyond)
    have limit := lt_yearStart_succ second
    omega

/-- A greater number is later in its interval, or in a later interval. -/
theorem cut_lt
    (lengths : List Nat) {first second : Nat} (less : first < second) :
    (cut lengths first).1 < (cut lengths second).1 ∨
      (cut lengths first).1 = (cut lengths second).1 ∧
        (cut lengths first).2 < (cut lengths second).2 := by
  induction lengths generalizing first second with
  | nil => exact Or.inr ⟨rfl, less⟩
  | cons length later induction =>
    rw [cut, cut]
    by_cases small : second < length
    · rw [if_pos small, if_pos (less.trans small)]
      exact Or.inr ⟨rfl, less⟩
    · rw [if_neg small]
      split
      · exact Or.inl (Nat.succ_pos _)
      · rename_i large
        have shifted : first - length < second - length := by omega
        rcases induction shifted with below | ⟨same, within⟩
        · exact Or.inl (Nat.succ_lt_succ below)
        · exact Or.inr ⟨congrArg (· + 1) same, within⟩

/-- A date read as one number, `yyyymmdd`. -/
def Date.number (date : Date) : Int :=
  10000 * date.year + 100 * date.month + date.day

/-- The dates of days are numbered in the order of the days. -/
theorem number_dateOf_lt {first second : Int} (less : first < second) :
    (dateOf first).number < (dateOf second).number := by
  rcases dateOf_digits first with ⟨firstMonth, firstDay⟩
  rcases dateOf_digits second with ⟨secondMonth, secondDay⟩
  have years : (dateOf first).year < (dateOf second).year ∨
      (dateOf first).year = (dateOf second).year ∧
        ((dateOf first).month < (dateOf second).month ∨
          (dateOf first).month = (dateOf second).month ∧
            (dateOf first).day < (dateOf second).day) := by
    rcases yearOf_lt less with before | ⟨same, later⟩
    · exact Or.inl before
    · refine Or.inr ⟨same, ?_⟩
      have months := cut_lt (monthLengths (isLeap (yearOf first).1)) later
      dsimp only [dateOf]
      rw [← same]
      omega
  rw [Date.number, Date.number]
  omega

/-- The text of a date in digits alone, `yyyymmdd`. -/
def compactChars (date : Date) : List Char :=
  yearText date.year ++ (Text.padded 2 date.month ++ Text.padded 2 date.day)

/-- The parts of the text of a date with a year of four digits. -/
theorem compactChars_dateOf {day : Int} (nonneg : 0 ≤ (dateOf day).year)
    (digits : (dateOf day).year ≤ 9999) :
    (∀ symbol ∈ compactChars (dateOf day), symbol.isDigit = true) ∧
      (compactChars (dateOf day)).length = 8 ∧
        (Nat.ofDigitChars 10 (compactChars (dateOf day)) 0 : Int) =
          (dateOf day).number := by
  rcases dateOf_digits day with ⟨month, inMonth⟩
  generalize dateOf day = date at *
  have year : date.year.natAbs < 10 ^ 4 := by omega
  have two : (0 : Nat) < 2 := by decide
  have monthLength := length_padded two month
  have dayLength := length_padded two inMonth
  rw [compactChars, yearText, if_neg (not_lt.mpr nonneg)]
  refine ⟨?_, ?_, ?_⟩
  · intro symbol member
    rcases List.mem_append.mp member with here | member
    · exact isDigit_of_mem_padded here
    · rcases List.mem_append.mp member with here | here
      · exact isDigit_of_mem_padded here
      · exact isDigit_of_mem_padded here
  · rw [List.length_append, List.length_append, monthLength, dayLength,
      length_padded (by decide) year]
  · rw [Nat.ofDigitChars_append, Nat.ofDigitChars_append,
      ofDigitChars_start, ofDigitChars_start (padded 2 _),
      ofDigitChars_padded, ofDigitChars_padded,
      ofDigitChars_padded, monthLength, dayLength, Date.number]
    omega

theorem compactChars_lt {first second : Int} (less : first < second)
    (firstYear : 0 ≤ (dateOf first).year ∧ (dateOf first).year ≤ 9999)
    (secondYear : 0 ≤ (dateOf second).year ∧ (dateOf second).year ≤ 9999) :
    compactChars (dateOf first) < compactChars (dateOf second) := by
  rcases compactChars_dateOf firstYear.1 firstYear.2 with
    ⟨firstDigits, firstLength, firstNumber⟩
  rcases compactChars_dateOf secondYear.1 secondYear.2 with
    ⟨secondDigits, secondLength, secondNumber⟩
  apply lt_of_ofDigitChars_lt firstDigits secondDigits
  · rw [firstLength, secondLength]
  · have order := number_dateOf_lt less
    omega

/-- The days of the years 1 to 9999. -/
theorem day_range {day : Int} (first : 1 ≤ (dateOf day).year)
    (last : (dateOf day).year ≤ 9999) : 0 ≤ day ∧ day < 3652059 := by
  have sum := (yearOf_spec day).1
  have lower := yearStart_mono first
  have upper := yearStart_mono (Int.add_le_add_right last 1)
  have limit := lt_yearStart_succ day
  have zero : yearStart 1 = 0 := rfl
  have tenThousand : yearStart (9999 + 1) = 3652059 := rfl
  change yearStart 1 ≤ yearStart (yearOf day).1 at lower
  change yearStart ((yearOf day).1 + 1) ≤ _ at upper
  omega

end Ironclaw.Lib.Calendar
