import Ironclaw.Disk.Directory
import Ironclaw.Disk.Name
import Mathlib.Data.List.Sort

/-!
# The disk spool

A queue of payloads in a directory, one file for each entry.  The order of
the entries, their sizes and the counters live in memory and are rebuilt from
the file names when the directory is opened.

Every operation is a program of file system calls.  The lock of the source is
held over each operation, so operations do not interleave.
-/

namespace Ironclaw.Disk

open Lib

def errInvalidBudget : Fault :=
  .sentinel "spool: max bytes must be positive"
def errEmpty : Fault :=
  .sentinel "spool: no entries"
def errTooLarge : Fault :=
  .sentinel "spool: payload exceeds the entire budget"
def errEmptyPayload : Fault :=
  .sentinel "spool: refusing to spool an empty payload"
def errTooMany : Fault :=
  .sentinel "spool: entry count exceeds the budget's index ceiling"
def errInvalidName : Fault :=
  .sentinel "spool: entry name is not a plain filename"

def minBudgetPerEntry : Int64 := 1024
def minEntries : Nat := 64

/-- The index in memory, with its counters. -/
structure Spool where
  maxBytes : Int64
  maxEntries : Nat
  order : List String
  sizes : GoMap String Int64
  bytes : Int64
  seq : UInt64
  enqueued : Int64
  dequeued : Int64
  dropped : Int64
  dropFailures : Int64

/-- The error of a reply, if it is one. -/
def FsReply.fault : FsReply → Option Fault
  | .failed fault => some fault
  | _ => none

/-- A call of which only the error matters. -/
def attempt (call : FsCall) : FsProgram (Option Fault) := do
  let reply ← Program.perform call
  pure reply.fault

namespace Spool

def new (maxBytes : Int64) : Spool where
  maxBytes := maxBytes
  maxEntries := max minEntries (maxBytes / minBudgetPerEntry).toInt.toNat
  order := []
  sizes := ∅
  bytes := 0
  seq := 0
  enqueued := 0
  dequeued := 0
  dropped := 0
  dropFailures := 0

/-! ## Removal -/

/-- Forget an entry whose file is gone. -/
def forget (name : String) (spool : Spool) : Spool :=
  match spool.sizes.lookup name with
  | none => spool
  | some size =>
    let bytes := spool.bytes - size
    { spool with
      bytes := if bytes < 0 then 0 else bytes
      sizes := spool.sizes.erase name
      order := spool.order.erase name }

/-- Remove an entry; a file already gone is no error. -/
def removeLocked (name : String) (spool : Spool) :
    FsProgram (Spool × Option Fault) :=
  if plainName name then do
    let fault ← attempt (.remove name)
    match fault with
    | none => pure (spool.forget name, none)
    | some fault =>
      if fault.is errNotExist then pure (spool.forget name, none)
      else
        pure (spool, some (.wrapped ("spool: removing entry " ++ name) fault))
  else
    pure (spool, some (.detailed errInvalidName ("\"" ++ name ++ "\"")))

/--
Remove the oldest entries while the spool is over some limit, until a removal
fails.  Each turn shortens the order, so its length is enough fuel.
-/
def evictWhile (exceeds : Spool → Bool) : Nat → Spool → FsProgram Spool
  | 0, spool => pure spool
  | fuel + 1, spool =>
    match spool.order with
    | [] => pure spool
    | oldest :: _ =>
      if exceeds spool then do
        let (removed, fault) ← spool.removeLocked oldest
        match fault with
        | some _ =>
          pure { removed with
            dropFailures := removed.dropFailures + 1 }
        | none =>
          evictWhile exceeds fuel
            { removed with dropped := removed.dropped + 1 }
      else pure spool

/-! ## Enqueue -/

/-- The next name that is not taken. -/
def nextName : Nat → Spool → Spool × String
  | 0, spool =>
    let spool := { spool with seq := spool.seq + 1 }
    (spool, entryName (spool.enqueued + 1) spool.seq)
  | fuel + 1, spool =>
    let spool := { spool with seq := spool.seq + 1 }
    let name := entryName (spool.enqueued + 1) spool.seq
    if name ∈ spool.sizes then nextName fuel spool else (spool, name)

/-- Write a file and sync it before it is closed. -/
def writeFileSynced (name : String) (payload : Payload) :
    FsProgram (Option Fault) := do
  match ← attempt (.openFile name) with
  | some fault => pure (some (.wrapped "spool: writing entry" fault))
  | none =>
    match ← attempt (.write name payload) with
    | some fault => do
        let _ ← attempt (.close name)
        pure (some (.wrapped "spool: writing entry" fault))
    | none =>
      match ← attempt (.sync name) with
      | some fault => do
          let _ ← attempt (.close name)
          pure (some (.wrapped "spool: syncing entry" fault))
      | none =>
        match ← attempt (.close name) with
        | some fault =>
          pure (some (.wrapped "spool: closing entry" fault))
        | none => pure none

/-- Add a published entry to the index. -/
def append (name : String) (size : Int64) (spool : Spool) : Spool :=
  { spool with
    order := spool.order ++ [name]
    sizes := spool.sizes.insert name size
    bytes := spool.bytes + size
    enqueued := spool.enqueued + 1 }

/-- Write a payload to a temporary file and publish it under its name. -/
def publish (name : String) (payload : Payload) (spool : Spool) :
    FsProgram (Spool × Option Fault) := do
  let temp := name ++ pending
  match ← writeFileSynced temp payload with
  | some fault => do
      let _ ← attempt (.remove temp)
      pure (spool, some fault)
  | none =>
    match ← attempt (.rename temp name) with
    | some fault => do
        let _ ← attempt (.remove temp)
        pure (spool, some (.wrapped "spool: publishing entry" fault))
    | none =>
      let spool := spool.append name (Int64.ofNat payload.length)
      match ← attempt .syncDirectory with
      | some fault =>
        pure (spool, some (.wrapped
            ("spool: syncing directory after publishing " ++ name)
            fault))
      | none => pure (spool, none)

/-- Store a payload, evicting the oldest entries for its bytes. -/
def enqueue (payload : Payload) (spool : Spool) :
    FsProgram (Spool × Option Fault) :=
  let size := Int64.ofNat payload.length
  if payload = [] then pure (spool, some errEmptyPayload)
  else if spool.maxBytes < size then
    pure ({ spool with dropped := spool.dropped + 1 }, some errTooLarge)
  else do
    let spool ← spool.evictWhile
      (fun spool => spool.maxBytes < spool.bytes + size)
      spool.order.length
    if spool.maxEntries ≤ spool.order.length then
      pure ({ spool with dropped := spool.dropped + 1 },
        some (.detailed errTooMany (toString spool.maxEntries ++ " entries")))
    else
      let (spool, name) := spool.nextName (GoMap.size spool.sizes)
      spool.publish name payload

/-! ## Peek and release -/

/-- An entry that cannot be read: forget it only if its file is gone. -/
def unreadable (name : String) (fault : Fault) (spool : Spool) :
    FsProgram (Spool × Except Fault (Payload × String)) := do
  let spool ←
    if fault.is errNotExist then do
      let (spool, _) ← spool.removeLocked name
      pure spool
    else pure spool
  pure (spool, .error (.wrapped "spool: reading entry" fault))

/-- The oldest entry, read but kept. -/
def peek (spool : Spool) :
    FsProgram (Spool × Except Fault (Payload × String)) :=
  match spool.order with
  | [] => pure (spool, .error errEmpty)
  | name :: _ => do
      match ← Program.perform (.lstat name) with
      | .failed fault => spool.unreadable name fault
      | _ =>
        match ← Program.perform (.readFile name) with
        | .content payload => pure (spool, .ok (payload, name))
        | .failed fault => spool.unreadable name fault
        -- Reading replies with a content or a failure.
        | _ => spool.unreadable name errInputOutput

/-- Remove an entry that was delivered. -/
def release (name : String) (spool : Spool) :
    FsProgram (Spool × Option Fault) :=
  if name ∈ spool.sizes then do
    let (spool, fault) ← spool.removeLocked name
    match fault with
    | some fault => pure (spool, some fault)
    | none => pure ({ spool with dequeued := spool.dequeued + 1 }, none)
  else pure (spool, none)

/-! ## Opening a directory -/

/-- An entry that recovery found in the directory. -/
structure Found where
  name : String
  ordinal : Int64
  sequence : UInt64
deriving DecidableEq

/-- The order of recovered entries. -/
def Found.before (found other : Found) : Bool :=
  if found.ordinal ≠ other.ordinal then found.ordinal < other.ordinal
  else found.sequence < other.sequence

/-- The order in which sorting leaves two entries. -/
def Found.inOrder (found other : Found) : Prop := other.before found = false

instance (found other : Found) : Decidable (found.inOrder other) :=
  inferInstanceAs (Decidable (other.before found = false))

/-- Index a file that recovery found; the counters pass its numbers. -/
def observe (found : Found) (size : Nat) (spool : Spool) : Spool :=
  { spool with
    sizes := spool.sizes.insert found.name (Int64.ofNat size)
    bytes := spool.bytes + Int64.ofNat size
    enqueued :=
      if spool.enqueued < found.ordinal then found.ordinal
      else spool.enqueued
    seq := if spool.seq < found.sequence then found.sequence
      else spool.seq }

def recoverEach :
    List String → Spool → List Found →
      FsProgram (Except Fault (Spool × List Found))
  | [], spool, found => pure (.ok (spool, found))
  | name :: rest, spool, found =>
    if ext name = pending then do
      let _ ← attempt (.remove name)
      recoverEach rest spool found
    else if ext name ≠ extension then recoverEach rest spool found
    else do
      match ← Program.perform (.info name) with
      | .size bytes =>
        match parseName name with
        | none => recoverEach rest spool found
        | some (ordinal, sequence) =>
          let entry : Found := ⟨name, ordinal, sequence⟩
          recoverEach rest (spool.observe entry bytes)
            (found ++ [entry])
      | .failed fault =>
        pure (.error (.wrapped ("spool: inspecting entry " ++ name) fault))
      -- Inspecting replies with a size or a failure.
      | _ => recoverEach rest spool found

/-- Rebuild the index from the directory. -/
def recover (spool : Spool) : FsProgram (Except Fault Spool) := do
  match ← Program.perform .readDir with
  | .names names => do
      match ← recoverEach names spool [] with
      | .error fault => pure (.error fault)
      | .ok (spool, found) =>
        let sorted := found.insertionSort Found.inOrder
        pure (.ok { spool with order := sorted.map Found.name })
  | .failed fault =>
    pure (.error (.wrapped "spool: reading directory" fault))
  -- Reading a directory replies with names or a failure.
  | _ => pure (.error errInputOutput)

/-- Evict until the index is within its limits. -/
def trimToBudget (spool : Spool) : FsProgram Spool :=
  spool.evictWhile
    (fun spool => spool.maxBytes < spool.bytes ||
      spool.maxEntries < spool.order.length)
    spool.order.length

end Spool

/-- `Open` on a given directory. -/
def openSpool (maxBytes : Int64) : FsProgram (Except Fault Spool) :=
  if maxBytes ≤ 0 then pure (.error errInvalidBudget)
  else do
    match ← attempt .mkdirAll with
    | some fault =>
      pure (.error (.wrapped "spool: creating directory" fault))
    | none =>
      match ← attempt .chmod with
      | some fault =>
        pure (.error
          (.wrapped "spool: restricting directory permissions" fault))
      | none =>
        match ← (Spool.new maxBytes).recover with
        | .error fault => pure (.error fault)
        | .ok spool => do
            let spool ← spool.trimToBudget
            pure (.ok spool)

end Ironclaw.Disk
