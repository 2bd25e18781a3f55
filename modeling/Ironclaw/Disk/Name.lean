import Ironclaw.Lib.Text
import Ironclaw.Lib.Word

/-!
# Names of spool entries

An entry is named after its ordinal and a sequence number, both padded to
twenty digits, with an extension that tells it from the temporary file it is
written to.  Recovery parses the numbers back from the name.
-/

namespace Ironclaw.Disk

open Lib Text

/-- The extension of a published entry. -/
def extension : String := ".batch"

/-- The extension of a temporary file. -/
def pending : String := ".partial"

/-- The text of a name from its last dot on. -/
def ext (name : String) : String :=
  match cutLast '.' name.toList with
  | none => ""
  | some (_, last) => String.ofList ('.' :: last)

/-- A number padded to twenty characters, sign included. -/
def padInt (number : Int) : List Char :=
  match number with
  | .ofNat number => padded 20 number
  | .negSucc number => '-' :: padded 19 (number + 1)

def entryName (ordinal : Int64) (sequence : UInt64) : String :=
  String.ofList (padInt ordinal.toInt) ++ "-" ++
    String.ofList (padded 20 sequence.toNat) ++ extension

/-- The number of a numeral with an optional sign. -/
def parseSigned : List Char → Option Int
  | '-' :: digits =>
    (parseDigits digits).map fun number : Nat => -Int.ofNat number
  | '+' :: digits => (parseDigits digits).map Int.ofNat
  | digits => (parseDigits digits).map Int.ofNat

/-- A signed number in the range of 64 bits. -/
def parseInt (text : List Char) : Option Int64 :=
  (parseSigned text).bind fun number =>
    if -9223372036854775808 ≤ number ∧ number ≤ 9223372036854775807 then
      some (Int64.ofInt number)
    else none

/-- An unsigned number in the range of 64 bits. -/
def parseUint (text : List Char) : Option UInt64 :=
  (parseDigits text).bind fun number =>
    if number < 2 ^ 64 then some (UInt64.ofNat number) else none

def trimSuffix (name suffix : List Char) : List Char :=
  if suffix.isSuffixOf name then name.take (name.length - suffix.length)
  else name

/-- The ordinal and the sequence number in a name. -/
def parseName (name : String) : Option (Int64 × UInt64) :=
  match cutLast '-' (trimSuffix name.toList extension.toList) with
  | none => none
  | some (ordinal, sequence) =>
    match parseInt ordinal, parseUint sequence with
    | some ordinal, some sequence => some (ordinal, sequence)
    | _, _ => none

/-! ## Names are read back -/

theorem parseUint_padded (sequence : UInt64) :
    parseUint (padded 20 sequence.toNat) = some sequence := by
  have bound : sequence.toNat < 2 ^ 64 := sequence.toNat_lt
  rw [parseUint, parseDigits_padded, Option.bind_some, if_pos bound,
    UInt64.ofNat_toNat]

theorem parseSigned_padInt (number : Int) :
    parseSigned (padInt number) = some number := by
  cases number with
  | ofNat number =>
    have noMinus : '-' ∉ padded 20 number :=
      notMem_padded (by decide)
    have noPlus : '+' ∉ padded 20 number :=
      notMem_padded (by decide)
    simp only [padInt, parseSigned]
    split
    · next rest equal => simp [equal] at noMinus
    · next rest equal => simp [equal] at noPlus
    · rw [parseDigits_padded, Option.map_some]
  | negSucc number =>
    change (parseDigits (padded 19 (number + 1))).map _ = _
    rw [parseDigits_padded, Option.map_some, Int.negSucc_eq]
    rfl

theorem parseInt_padInt (ordinal : Int64) :
    parseInt (padInt ordinal.toInt) = some ordinal := by
  have lower : -9223372036854775808 ≤ ordinal.toInt := by
    have bound := Int64.le_toInt ordinal
    omega
  have upper : ordinal.toInt ≤ 9223372036854775807 := by
    have bound := Int64.toInt_lt ordinal
    omega
  rw [parseInt, parseSigned_padInt, Option.bind_some,
    if_pos ⟨lower, upper⟩, Int64.ofInt_toInt]

theorem trimSuffix_append (name suffix : List Char) :
    trimSuffix (name ++ suffix) suffix = name := by
  rw [trimSuffix, if_pos]
  · simp
  · rw [List.isSuffixOf_iff_suffix]
    exact List.suffix_append name suffix

theorem parseName_entryName (ordinal : Int64) (sequence : UInt64) :
    parseName (entryName ordinal sequence) = some (ordinal, sequence) := by
  have dash : "-".toList = ['-'] := by decide
  have noDash : '-' ∉ padded 20 sequence.toNat :=
    notMem_padded (by decide)
  simp only [parseName, entryName, String.toList_append,
    String.toList_ofList, dash, trimSuffix_append]
  rw [List.append_assoc, List.singleton_append, cutLast_append _ noDash]
  simp only [parseInt_padInt, parseUint_padded]

theorem entryName_injective
    {ordinal ordinal' : Int64} {sequence sequence' : UInt64}
    (equal : entryName ordinal sequence = entryName ordinal' sequence') :
    ordinal = ordinal' ∧ sequence = sequence' := by
  have parsed := congrArg parseName equal
  rw [parseName_entryName, parseName_entryName] at parsed
  exact Prod.mk.inj (Option.some.inj parsed)

/-! ## Extensions tell entries from temporary files -/

theorem ext_append (name : String) {last : List Char} (noDot : '.' ∉ last) :
    ext (name ++ String.ofList ('.' :: last)) =
      String.ofList ('.' :: last) := by
  simp only [ext, String.toList_append, String.toList_ofList,
    cutLast_append _ noDot]

theorem ext_entryName (ordinal : Int64) (sequence : UInt64) :
    ext (entryName ordinal sequence) = extension := by
  have text : extension = String.ofList ('.' :: "batch".toList) := by
    decide
  rw [entryName, text]
  exact ext_append _ (by decide)

theorem ext_pending (name : String) : ext (name ++ pending) = pending := by
  have text : pending = String.ofList ('.' :: "partial".toList) := by
    decide
  rw [text]
  exact ext_append _ (by decide)

/-- A name that stays inside its directory. -/
def plainName (name : String) : Bool :=
  name ≠ "" && !name.toList.contains '/' && name ≠ "."

theorem plainName_entryName (ordinal : Int64) (sequence : UInt64) :
    plainName (entryName ordinal sequence) = true := by
  have noSlash : '/' ∉ (entryName ordinal sequence).toList := by
    have noneSigned : '/' ∉ padInt ordinal.toInt := by
      cases ordinal.toInt with
      | ofNat number => exact notMem_padded (by decide)
      | negSucc number =>
        have digits : '/' ∉ padded 19 (number + 1) :=
          notMem_padded (by decide)
        simp [padInt, digits]
    have noneUnsigned : '/' ∉ padded 20 sequence.toNat :=
      notMem_padded (by decide)
    have fixed : '/' ∉ "-".toList ∧ '/' ∉ extension.toList := by decide
    simp [entryName, noneSigned, noneUnsigned, fixed]
  have batch : ext (entryName ordinal sequence) = extension :=
    ext_entryName ordinal sequence
  have notEmpty : entryName ordinal sequence ≠ "" := by
    intro empty
    rw [empty] at batch
    revert batch
    decide
  have notDot : entryName ordinal sequence ≠ "." := by
    intro dot
    rw [dot] at batch
    revert batch
    decide
  simp [plainName, notEmpty, notDot, noSlash]

end Ironclaw.Disk
