import Mathlib.Algebra.GroupWithZero.Nat
import Mathlib.Data.List.DropRight
import Mathlib.Tactic.Ring

/-!
# Delimited texts

Keys of the modelled program are texts glued together with delimiters.  A
text is read back from the right: the part after the last delimiter is
determined as soon as it does not contain that delimiter.  Decimal numerals
contain digits and a sign only, and determine their number.

Texts are also cut at their last delimiter and numerals parsed, with leading
zeros allowed; both undo how such a text was put together.  Texts of as many
digits are ordered as their numbers.
-/

namespace Ironclaw.Lib.Text

open List

variable {symbol : Char}

/-- Everything around the last occurrence of a delimiter is determined. -/
theorem split_at_last {Symbol : Type*} {delimiter : Symbol}
    {left right left' right' : List Symbol}
    (absent : delimiter ∉ right) (absent' : delimiter ∉ right')
    (equal : left ++ delimiter :: right = left' ++ delimiter :: right') :
    left = left' ∧ right = right' := by
  rcases append_eq_append_iff.mp equal with
    ⟨middle, leftEqual, rightEqual⟩ | ⟨middle, leftEqual, rightEqual⟩
  · cases middle with
    | nil =>
      simp only [append_nil] at leftEqual
      simp only [nil_append, List.cons.injEq, true_and] at rightEqual
      exact ⟨leftEqual.symm, rightEqual⟩
    | cons head tail =>
      simp only [cons_append, List.cons.injEq] at rightEqual
      exact (absent (by simp [rightEqual.2])).elim
  · cases middle with
    | nil =>
      simp only [append_nil] at leftEqual
      simp only [nil_append, List.cons.injEq, true_and] at rightEqual
      exact ⟨leftEqual, rightEqual.symm⟩
    | cons head tail =>
      simp only [cons_append, List.cons.injEq] at rightEqual
      exact (absent' (by simp [rightEqual.2])).elim

theorem split_at_first {Symbol : Type*} {delimiter : Symbol}
    {left right left' right' : List Symbol}
    (absent : delimiter ∉ left) (absent' : delimiter ∉ left')
    (equal : left ++ delimiter :: right = left' ++ delimiter :: right') :
    left = left' ∧ right = right' := by
  have reversed := congrArg List.reverse equal
  simp only [reverse_append, reverse_cons,
    append_assoc, singleton_append] at reversed
  have parts := split_at_last
    (by simpa using absent) (by simpa using absent') reversed
  exact ⟨reverse_injective parts.2, reverse_injective parts.1⟩

/-- The characters of a decimal numeral. -/
def numeral (number : Int) : List Char := (Int.repr number).toList

theorem numeral_ofNat (number : Nat) :
    numeral (Int.ofNat number) = Nat.toDigits 10 number :=
  Nat.toList_repr

theorem numeral_negSucc (number : Nat) : numeral (Int.negSucc number) =
      '-' :: Nat.toDigits 10 (number + 1) := by
  simp [numeral, Int.repr]

/-- Numerals consist of digits and possibly a sign. -/
theorem mem_numeral {number : Int} (member : symbol ∈ numeral number) :
    symbol.isDigit = true ∨ symbol = '-' := by
  cases number with
  | ofNat number =>
    rw [numeral_ofNat] at member
    exact Or.inl (Nat.isDigit_of_mem_toDigits (by decide) (by decide) member)
  | negSucc number =>
    rw [numeral_negSucc] at member
    rcases mem_cons.mp member with sign | digit
    · exact Or.inr sign
    · exact Or.inl (Nat.isDigit_of_mem_toDigits (by decide) (by decide) digit)

theorem notMem_numeral {number : Int}
    (notDigit : symbol.isDigit = false) (notSign : symbol ≠ '-') :
    symbol ∉ numeral number := by
  intro member
  rcases mem_numeral member with digit | sign
  · simp [notDigit] at digit
  · exact notSign sign

theorem toDigits_injective : Function.Injective (Nat.toDigits 10) := by
  intro left right equal
  have values := congrArg (Nat.ofDigitChars 10 · 0) equal
  simpa only [Nat.ofDigitChars_ten_toDigits] using values

theorem sign_notMem_toDigits (number : Nat) :
    '-' ∉ Nat.toDigits 10 number := by
  intro member
  have digit : ('-' : Char).isDigit = true :=
    Nat.isDigit_of_mem_toDigits (by decide) (by decide) member
  revert digit
  decide

/-- Different numbers have different numerals. -/
theorem numeral_injective : Function.Injective numeral := by
  intro left right equal
  cases left with
  | ofNat left =>
    cases right with
    | ofNat right =>
      rw [numeral_ofNat, numeral_ofNat] at equal
      exact congrArg Int.ofNat (toDigits_injective equal)
    | negSucc right =>
      rw [numeral_ofNat, numeral_negSucc] at equal
      exact (sign_notMem_toDigits left (by simp [equal])).elim
  | negSucc left =>
    cases right with
    | ofNat right =>
      rw [numeral_ofNat, numeral_negSucc] at equal
      exact (sign_notMem_toDigits right (by simp [← equal])).elim
    | negSucc right =>
      rw [numeral_negSucc, numeral_negSucc] at equal
      have digits := toDigits_injective (List.cons.inj equal).2
      exact congrArg Int.negSucc (Nat.succ.inj digits)

/-! ## Cutting and parsing -/

/-- The parts of a text before and after the last delimiter. -/
def cutLast (delimiter : Char) (text : List Char) :
    Option (List Char × List Char) :=
  if delimiter ∈ text then
    some ((text.rdropWhile (· ≠ delimiter)).dropLast,
      text.rtakeWhile (· ≠ delimiter))
  else none

theorem cutLast_append
    {delimiter : Char} (left : List Char) {right : List Char}
    (absent : delimiter ∉ right) :
    cutLast delimiter (left ++ delimiter :: right) = some (left, right) := by
  have passed : ∀ symbol ∈ right.reverse,
      (decide (symbol ≠ delimiter)) = true := by
    intro symbol member
    rw [decide_eq_true_eq]
    rintro rfl
    exact absent (mem_reverse.mp member)
  have reversed : (left ++ delimiter :: right).reverse =
      right.reverse ++ delimiter :: left.reverse := by
    simp
  rw [cutLast, if_pos (by simp), List.rdropWhile, List.rtakeWhile, reversed,
    dropWhile_append_of_pos passed, takeWhile_append_of_pos passed]
  simp

/-- The digits of a number after leading zeros up to a width. -/
def padded (width number : Nat) : List Char :=
  List.replicate (width - (Nat.toDigits 10 number).length) '0' ++
    Nat.toDigits 10 number

/-- The number written by a non-empty text of digits. -/
def parseDigits (text : List Char) : Option Nat :=
  if text ≠ [] ∧ text.all Char.isDigit then
    some (Nat.ofDigitChars 10 text 0)
  else none

theorem isDigit_of_mem_padded
    {width number : Nat} (member : symbol ∈ padded width number) :
    symbol.isDigit = true := by
  rcases mem_append.mp member with zero | digit
  · rw [eq_of_mem_replicate zero]
    decide
  · exact Nat.isDigit_of_mem_toDigits (by decide) (by decide) digit

theorem ofDigitChars_replicate_zero (amount : Nat) :
    Nat.ofDigitChars 10 (List.replicate amount '0') 0 = 0 := by
  induction amount with
  | zero => rfl
  | succ amount induction =>
    rw [replicate_succ, Nat.ofDigitChars_cons]
    exact induction

theorem padded_ne_nil (width number : Nat) : padded width number ≠ [] := by
  have digits : Nat.toDigits 10 number ≠ [] := Nat.toDigits_ne_nil
  simp [padded, digits]

theorem length_padded
    {width number : Nat} (positive : 0 < width) (fits : number < 10 ^ width) :
    (padded width number).length = width := by
  have short := (Nat.length_toDigits_le_iff (by decide) positive).mpr fits
  rw [padded, length_append, length_replicate]
  omega

theorem ofDigitChars_padded (width number : Nat) :
    Nat.ofDigitChars 10 (padded width number) 0 = number := by
  rw [padded, Nat.ofDigitChars_append, ofDigitChars_replicate_zero,
    Nat.ofDigitChars_ten_toDigits]

theorem parseDigits_padded (width number : Nat) :
    parseDigits (padded width number) = some number := by
  have digits : (padded width number).all Char.isDigit = true := by
    rw [all_eq_true]
    intro symbol member
    exact isDigit_of_mem_padded member
  rw [parseDigits, if_pos ⟨padded_ne_nil width number, digits⟩,
    ofDigitChars_padded]

/-- The number written by a text of digits, possibly after a sign. -/
def parseInt : List Char → Option Int
  | '-' :: digits => (parseDigits digits).map fun number => -(number : Int)
  | digits => (parseDigits digits).map Int.ofNat

theorem parseDigits_toDigits (number : Nat) :
    parseDigits (Nat.toDigits 10 number) = some number := by
  have unpadded := parseDigits_padded 0 number
  rwa [padded, Nat.zero_sub, replicate_zero, nil_append] at unpadded

/-- A numeral is read back as its number. -/
theorem parseInt_numeral (number : Int) :
    parseInt (numeral number) = some number := by
  cases number with
  | ofNat number =>
    rw [numeral_ofNat]
    have unsigned := sign_notMem_toDigits number
    cases digits : Nat.toDigits 10 number with
    | nil => exact absurd digits Nat.toDigits_ne_nil
    | cons first rest =>
      rw [digits] at unsigned
      have different : first ≠ '-' := by
        rintro rfl
        exact unsigned mem_cons_self
      rw [parseInt]
      · rw [← digits, parseDigits_toDigits]
        rfl
      · intro _ same
        exact different (List.cons.inj same).1
  | negSucc number =>
    rw [numeral_negSucc, parseInt, parseDigits_toDigits]
    rfl

theorem notMem_padded
    {width number : Nat} (notDigit : symbol.isDigit = false) :
    symbol ∉ padded width number := by
  intro member
  rw [isDigit_of_mem_padded member] at notDigit
  cases notDigit

/-! ## Order -/

theorem ofDigitChars_start (text : List Char) (start : Nat) :
    Nat.ofDigitChars 10 text start =
      start * 10 ^ text.length + Nat.ofDigitChars 10 text 0 := by
  induction text generalizing start with
  | nil => simp [Nat.ofDigitChars]
  | cons symbol rest induction =>
    rw [Nat.ofDigitChars_cons, Nat.ofDigitChars_cons, induction,
      induction (10 * 0 + _), length_cons, pow_succ]
    ring

theorem ofDigitChars_first (symbol : Char) (rest : List Char) :
    Nat.ofDigitChars 10 (symbol :: rest) 0 =
      (symbol.toNat - 48) * 10 ^ rest.length +
        Nat.ofDigitChars 10 rest 0 := by
  rw [Nat.ofDigitChars_cons, ofDigitChars_start, Nat.mul_zero, Nat.zero_add]
  rfl

theorem digit_bounds (digit : symbol.isDigit = true) :
    48 ≤ symbol.toNat ∧ symbol.toNat ≤ 57 := by
  simpa [Char.isDigit, UInt32.le_iff_toNat_le] using digit

/-- A text of digits is less than a power of ten. -/
theorem ofDigitChars_lt
    {text : List Char} (digits : ∀ symbol ∈ text, symbol.isDigit = true) :
    Nat.ofDigitChars 10 text 0 < 10 ^ text.length := by
  induction text with
  | nil => simp [Nat.ofDigitChars]
  | cons symbol rest induction =>
    have bounds := digit_bounds (digits symbol mem_cons_self)
    have small := induction fun other member =>
      digits other (mem_cons_of_mem _ member)
    have digit : symbol.toNat - 48 ≤ 9 := by omega
    have scaled := Nat.mul_le_mul_right (10 ^ rest.length) digit
    rw [ofDigitChars_first, length_cons, pow_succ]
    omega

/-- Texts of as many digits are ordered as their numbers. -/
theorem lt_of_ofDigitChars_lt {left right : List Char}
    (leftDigits : ∀ symbol ∈ left, symbol.isDigit = true)
    (rightDigits : ∀ symbol ∈ right, symbol.isDigit = true)
    (length : left.length = right.length)
    (less : Nat.ofDigitChars 10 left 0 < Nat.ofDigitChars 10 right 0) :
    left < right := by
  induction left generalizing right with
  | nil =>
    rw [length_nil] at length
    rw [eq_nil_of_length_eq_zero length.symm] at less
    exact absurd less (Nat.lt_irrefl _)
  | cons first rest induction =>
    cases right with
    | nil => cases length
    | cons second others =>
      have lengths : rest.length = others.length := Nat.succ.inj length
      have restDigits : ∀ symbol ∈ rest, symbol.isDigit = true :=
        fun symbol member => leftDigits symbol (mem_cons_of_mem _ member)
      have otherDigits : ∀ symbol ∈ others, symbol.isDigit = true :=
        fun symbol member => rightDigits symbol (mem_cons_of_mem _ member)
      rw [ofDigitChars_first, ofDigitChars_first, lengths] at less
      apply cons_lt_cons_iff.mpr
      rcases Nat.lt_trichotomy first.toNat second.toNat with
        below | same | above
      · exact Or.inl below
      · rw [same] at less
        exact Or.inr ⟨Char.toNat_inj.mp same, induction restDigits
          otherDigits lengths (Nat.lt_of_add_lt_add_left less)⟩
      · -- a greater digit is not made good by the digits after it
        have lowest := (digit_bounds (rightDigits second mem_cons_self)).1
        have digit : second.toNat - 48 + 1 ≤ first.toNat - 48 := by
          omega
        have scaled := Nat.mul_le_mul_right (10 ^ others.length) digit
        have small := ofDigitChars_lt otherDigits
        rw [Nat.add_mul, Nat.one_mul] at scaled
        omega

theorem append_ofList_lt
    (start : String) {left right : List Char} (less : left < right) :
    start ++ String.ofList left < start ++ String.ofList right := by
  apply String.lt_iff.mpr
  rw [String.toList_append, String.toList_append, String.toList_ofList,
    String.toList_ofList]
  exact append_left_lt less

end Ironclaw.Lib.Text
