import Ironclaw.Domain.Key

/-!
# Identities are injective

An identity is an unescaped text with three delimiters.  It is read from both
ends.  From the right, the sequence number and the window follow the last two
`#`, which no numeral contains.  From the left, a user without a brace ends at
the first brace, and a device without a colon at the next colon; between the
process and the pod stands the first colon after a numeral, so that a pod may
contain any of the delimiters.
-/

namespace Ironclaw.Domain

open Lib String Text

/-- The identity shared by all emissions of one window. -/
def AggregateWindow.windowIdentity (window : AggregateWindow) : String :=
  window.key.format ++ "#" ++ appendInt window.windowID.toInt

theorem colon_notMem_numeral (number : Int) : ':' ∉ numeral number :=
  notMem_numeral (by decide) (by decide)

theorem AggregateWindow.parts_of_identity
    {left right : AggregateWindow} (equal : left.identity = right.identity) :
    left.key.format = right.key.format ∧
      left.windowID = right.windowID ∧ left.sequence = right.sequence := by
  have outer : left.windowIdentity = right.windowIdentity ∧
      left.sequence.toInt = right.sequence.toInt :=
    hash_number_injective equal
  have inner := hash_number_injective outer.1
  exact ⟨inner.1, Int64.toInt_inj.mp inner.2, Int64.toInt_inj.mp outer.2⟩

namespace CorrelationKey

/-- What stands behind the device in the text of a key. -/
def suffix (key : CorrelationKey) : List Char :=
  Text.numeral key.processID.toInt ++ ':' :: key.podID.toList

theorem toList_format (key : CorrelationKey) : key.format.toList =
      '\x7b' :: (key.userID.toList ++
        '\x7d' :: (':' :: (key.deviceID.toList ++ ':' :: key.suffix))) := by
  simp [format, suffix, toList_append, toList_appendInt]

theorem parts_of_suffix
    {left right : CorrelationKey} (equal : left.suffix = right.suffix) :
    left.processID = right.processID ∧ left.podID = right.podID := by
  have parts := split_at_first (colon_notMem_numeral left.processID.toInt)
    (colon_notMem_numeral right.processID.toInt) equal
  constructor
  · exact Int32.toInt_inj.mp (numeral_injective parts.1)
  · exact toList_inj.mp parts.2

theorem parts_of_format
    {left right : CorrelationKey} (user : left.userID = right.userID)
    (device : left.deviceID = right.deviceID)
    (equal : left.format = right.format) :
    left.processID = right.processID ∧ left.podID = right.podID := by
  have texts := congrArg toList equal
  simp only [toList_format, user, device, List.cons.injEq, true_and,
    List.append_cancel_left_eq] at texts
  exact parts_of_suffix texts

/-- Without a brace in the user and a colon in the device, the text
determines the whole key. -/
theorem eq_of_format
    {left right : CorrelationKey} (leftUser : '\x7d' ∉ left.userID.toList)
    (rightUser : '\x7d' ∉ right.userID.toList)
    (leftDevice : ':' ∉ left.deviceID.toList)
    (rightDevice : ':' ∉ right.deviceID.toList)
    (equal : left.format = right.format) : left = right := by
  have texts := congrArg toList equal
  rw [toList_format, toList_format] at texts
  have users := split_at_first leftUser rightUser (List.cons.inj texts).2
  have devices := split_at_first leftDevice rightDevice
    (List.cons.inj users.2).2
  have user := toList_inj.mp users.1
  have device := toList_inj.mp devices.1
  have rest := parts_of_suffix devices.2
  cases left
  cases right
  simp_all

end CorrelationKey

/--
Two emissions of one device have the same identity exactly when the process,
the pod, the window and the sequence are the same.  Of any users without a
brace and devices without a colon, the identity determines the whole key.
-/
theorem identity_injective (left right : AggregateWindow) :
    (left.key.userID = right.key.userID →
      left.key.deviceID = right.key.deviceID →
        (left.identity = right.identity ↔
          left.key.processID = right.key.processID ∧
            left.key.podID = right.key.podID ∧
              left.windowID = right.windowID ∧
                left.sequence = right.sequence)) ∧
      ('\x7d' ∉ left.key.userID.toList → '\x7d' ∉ right.key.userID.toList →
          ':' ∉ left.key.deviceID.toList → ':' ∉ right.key.deviceID.toList →
              left.identity = right.identity → left.key = right.key ∧
                  left.windowID = right.windowID ∧
                    left.sequence = right.sequence) := by
  constructor
  · intro user device
    constructor
    · intro equal
      have parts := AggregateWindow.parts_of_identity equal
      have rest := CorrelationKey.parts_of_format user device parts.1
      exact ⟨rest.1, rest.2, parts.2⟩
    · rintro ⟨process, pod, window, sequence⟩
      simp only [AggregateWindow.identity, CorrelationKey.format, user,
        device, process, pod, window, sequence]
  · intro leftUser rightUser leftDevice rightDevice equal
    have parts := AggregateWindow.parts_of_identity equal
    exact ⟨CorrelationKey.eq_of_format leftUser rightUser leftDevice
      rightDevice parts.1, parts.2⟩

/-- An emission of a pod whose name contains every delimiter. -/
def awkwardWindow : AggregateWindow where
  key := ⟨"user-1", "device-1", -7, "pod:3#-1#5"⟩
  windowID := -2
  sequence := 9
  windowStart := ⟨-20⟩
  windowEnd := ⟨-10⟩
  count := 1
  errorCount := 0
  bytes := 64
  p95Nanos := 5
  p99Nanos := 5
  maxNanos := 5

/-- The same emission under another pod, whose name ends as the first does. -/
def awkwardSibling : AggregateWindow :=
  { awkwardWindow with
    key := ⟨"user-1", "device-1", -7, "3#-1#5"⟩ }

def awkwardStranger : AggregateWindow :=
  { awkwardWindow with
    key := ⟨"user-1", "device", -7, "1:-7:pod:3#-1#5"⟩ }

theorem identity_injective_example :
    awkwardWindow.identity ≠ awkwardSibling.identity ∧
      awkwardWindow.identity ≠ awkwardStranger.identity := by
  constructor
  · intro equal
    have parts := ((identity_injective awkwardWindow awkwardSibling).1
      rfl rfl).mp equal
    exact absurd parts.2.1 (by decide)
  · intro equal
    have parts := (identity_injective awkwardWindow awkwardStranger).2
      (by decide) (by decide) (by decide) (by decide) equal
    exact absurd parts.1 (by decide)

end Ironclaw.Domain
