import Ironclaw.Domain.Event
import Ironclaw.Lib.GoMap
import Ironclaw.Lib.Machine
import Ironclaw.Lib.Word

/-!
# The fenced lock

`Acquire` hands out a lease with a token that grows by one for each resource;
`Guard` admits a holder to a write, and `Release` gives the lock up.  A lease
expires with time, but its entry stays until it is released or taken over.

Any number of clients call the locker, with any readings of the clock, and
present leases that were issued to any of them.
-/

namespace Ironclaw.Store

open Lib Domain

def errLockHeld : Fault :=
  .sentinel "store: lock is held by another holder"

def errLeaseSuperseded : Fault :=
  .sentinel "store: lease was superseded by a newer fencing token"

def errEmptyResource : Fault :=
  .sentinel "store: resource name is required"

/-- Fifteen seconds, in nanoseconds. -/
def defaultLeaseTTL : Int64 := 15000000000

/-- What `Acquire` gives its caller. -/
structure Lease where
  resource : String
  token : Int64
  expiresAt : Time
deriving DecidableEq

/-- What the locker knows of a lock. -/
structure HeldLock where
  token : Int64
  expiresAt : Time
deriving DecidableEq

/-- The locks held, and the last token of each. -/
structure Locker where
  held : GoMap String HeldLock
  fences : GoMap String Int64

namespace Locker

def new : Locker := ⟨∅, ∅⟩

/-- The last token of a resource; zero before the first one. -/
def fence (resource : String) (locker : Locker) : Int64 :=
  (locker.fences.lookup resource).getD 0

/-- The time to live of a lease, with its default. -/
def leaseTTL (ttl : Int64) : Int64 :=
  if ttl ≤ 0 then defaultLeaseTTL else ttl

/-- A lease on the resource is live. -/
def isHeld (now : Time) (resource : String) (locker : Locker) : Bool :=
  (locker.held.lookup resource).any fun current =>
    current.expiresAt.after now

/-- Take a free lock under the next token. -/
def acquire
    (context : Option Fault) (now : Time) (resource : String) (ttl : Int64)
    (locker : Locker) : Locker × Except Fault Lease :=
  match context with
  | some fault => (locker, .error fault)
  | none =>
    if resource = "" then (locker, .error errEmptyResource)
    else if locker.isHeld now resource then (locker, .error errLockHeld)
    else
      let lease : Lease :=
        ⟨resource, locker.fence resource + 1, now.add (leaseTTL ttl)⟩
      ({ held := locker.held.insert resource
            ⟨lease.token, lease.expiresAt⟩
         fences := locker.fences.insert resource lease.token },
        .ok lease)

/-- Give a lock up, if the token is current. -/
def release (context : Option Fault) (lease : Lease) (locker : Locker) :
    Locker × Option Fault :=
  match context with
  | some fault => (locker, some fault)
  | none =>
    match locker.held.lookup lease.resource with
    | none => (locker, none)
    | some current =>
      if current.token ≠ lease.token then
        (locker, some errLeaseSuperseded)
      else
        ({ locker with held := locker.held.erase lease.resource }, none)

/-- Whether a lease still holds. -/
def guard
    (context : Option Fault) (now : Time) (lease : Lease)
    (locker : Locker) : Option Fault :=
  match context with
  | some fault => some fault
  | none =>
    match locker.held.lookup lease.resource with
    | none => some errLeaseSuperseded
    | some current =>
      if current.token ≠ lease.token then some errLeaseSuperseded
      else if lease.token < locker.fence lease.resource then
        some errLeaseSuperseded
      else if ¬now.before current.expiresAt then
        some errLeaseSuperseded
      else none

/-! ## What one call can do -/

variable {locker : Locker} {lease : Lease} {now : Time}

theorem acquire_cases
    (context : Option Fault) (now : Time) (resource : String) (ttl : Int64)
    (locker : Locker) :
    (∃ fault, locker.acquire context now resource ttl =
        (locker, .error fault)) ∨
      (locker.isHeld now resource = false ∧
        locker.acquire context now resource ttl =
          (⟨locker.held.insert resource
              ⟨locker.fence resource + 1, now.add (leaseTTL ttl)⟩,
            locker.fences.insert resource (locker.fence resource + 1)⟩,
            .ok ⟨resource, locker.fence resource + 1,
              now.add (leaseTTL ttl)⟩)) := by
  cases context with
  | some fault => exact Or.inl ⟨fault, rfl⟩
  | none =>
    by_cases empty : resource = ""
    · exact Or.inl ⟨errEmptyResource, by simp only [acquire, if_pos empty]⟩
    · cases live : locker.isHeld now resource with
      | true =>
        exact Or.inl ⟨errLockHeld, by simp [acquire, empty, live]⟩
      | false => exact Or.inr ⟨rfl, by simp [acquire, empty, live]⟩

/-- A release removes the entry of its own lease, and nothing else. -/
theorem release_cases
    (context : Option Fault) (lease : Lease) (locker : Locker) :
    (∃ fault, locker.release context lease = (locker, some fault)) ∨
      (locker.held.lookup lease.resource = none ∧
        locker.release context lease = (locker, none)) ∨
      ∃ current, locker.held.lookup lease.resource = some current ∧
        current.token = lease.token ∧ locker.release context lease =
            ({ locker with held := locker.held.erase lease.resource },
              none) := by
  cases context with
  | some fault => exact Or.inl ⟨fault, rfl⟩
  | none =>
    cases found : locker.held.lookup lease.resource with
    | none => exact Or.inr (Or.inl ⟨rfl, by simp [release, found]⟩)
    | some current =>
      by_cases same : current.token = lease.token
      · exact Or.inr (Or.inr
          ⟨current, rfl, same, by simp [release, found, same]⟩)
      · exact Or.inl ⟨errLeaseSuperseded, by simp [release, found, same]⟩

theorem guard_admits {context : Option Fault}
    (admitted : locker.guard context now lease = none) :
    ∃ current, locker.held.lookup lease.resource = some current ∧
      current.token = lease.token ∧
        ¬lease.token < locker.fence lease.resource ∧
          now.before current.expiresAt = true := by
  cases context with
  | some fault => cases admitted
  | none =>
    simp only [guard] at admitted
    split at admitted
    · cases admitted
    · rename_i current found
      split at admitted
      · cases admitted
      · rename_i same
        split at admitted
        · cases admitted
        · rename_i latest
          split at admitted
          · cases admitted
          · rename_i live
            exact ⟨current, found, not_not.mp same, latest, not_not.mp live⟩

/-- With a live context a lease passes, or is superseded. -/
theorem guard_cases (now : Time) (lease : Lease) (locker : Locker) :
    locker.guard none now lease = none ∨
      locker.guard none now lease = some errLeaseSuperseded := by
  simp only [guard]
  split
  · exact Or.inr rfl
  · split
    · exact Or.inr rfl
    · split
      · exact Or.inr rfl
      · split
        · exact Or.inr rfl
        · exact Or.inl rfl

end Locker

end Ironclaw.Store
