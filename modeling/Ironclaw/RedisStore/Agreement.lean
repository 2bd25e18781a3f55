import Ironclaw.RedisStore.Lock
import Ironclaw.Store.Fencing

/-!
# The two fenced locks side by side

The locker in memory and the scripts of the Redis store are called with the
same arguments and read the same clock.  They give the same answers as long as
leases last a whole number of milliseconds, tokens stay below `2^53`, and
nobody releases a superseded lease while the newest lease of its resource has
expired without being released.

In the last case the locker still finds the expired entry and reports the
lease as superseded; the key of the Redis store is gone, and the release
succeeds.
-/

namespace Ironclaw.RedisStore

open Lib Lib.Redis Domain Store List Option Function Int64 AList Script Server

/-! ## Keys -/

theorem lockKey_ne_fenceKey (space resource other : String) :
    lockKey space resource ≠ fenceKey space other := by
  intro equal
  have texts := congrArg String.toList equal
  simp only [lockKey, fenceKey, String.toList_append, append_assoc] at texts
  have rest := append_cancel_left texts
  have first := congrArg (fun text => text[1]?) rest
  revert first
  simp

theorem append_middle_injective {first resource other last : String}
    (equal : first ++ resource ++ last = first ++ other ++ last) :
    resource = other := by
  have texts := congrArg String.toList equal
  simp only [String.toList_append, append_assoc] at texts
  have rest := append_cancel_left texts
  exact String.toList_inj.mp (append_cancel_right rest)

theorem lockKey_injective {space resource other : String}
    (equal : lockKey space resource = lockKey space other) :
    resource = other :=
  append_middle_injective equal

theorem fenceKey_injective {space resource other : String}
    (equal : fenceKey space resource = fenceKey space other) :
    resource = other :=
  append_middle_injective equal

/-! ## The machine -/

/-- What a call of either lock answers. -/
inductive Answer where
  | token (token : Int64)
  | done
  | lockHeld
  | superseded
  | emptyResource
  | failed
deriving DecidableEq

/-- Both locks, the leases each has issued, and the clock. -/
structure Twins where
  locker : Locker
  server : Server
  issued : List Lease
  remote : List Lease
  now : Time

/-- A call of both lockers, or time that passes. -/
inductive TwinCall where
  | acquire (resource : String) (ttl : Int64)
  | release (lease : Nat)
  | guard (lease : Nat)
  | advance (nanoseconds : Nat)

/-- The answer of `Acquire`, whose errors each package names itself. -/
def answerOf (heldFault emptyFault : Fault) :
    Except Fault Lease → Answer
  | .ok lease => .token lease.token
  | .error fault =>
    if fault = heldFault then .lockHeld
    else if fault = emptyFault then .emptyResource
    else .failed

/-- The answer of `Release` and `Guard`. -/
def verdictOf (supersededFault : Fault) : Option Fault → Answer
  | none => .done
  | some fault =>
    if fault = supersededFault then .superseded else .failed

namespace Twins

variable (space : String)

def new (now : Time) : Twins :=
  ⟨Locker.new, Server.empty, [], [], now⟩

/-- What the two locks answer to a call. -/
def answers (twins : Twins) : TwinCall → Option (Answer × Answer)
  | .acquire resource ttl =>
    some
      (answerOf Store.errLockHeld Store.errEmptyResource
        (twins.locker.acquire none twins.now resource ttl).2,
      answerOf errLockHeld errEmptyResource
        (acquire space twins.now resource ttl twins.server).2)
  | .release index =>
    match twins.issued[index]?, twins.remote[index]? with
    | some lease, some remote =>
      some
        (verdictOf Store.errLeaseSuperseded
          (twins.locker.release none lease).2,
        verdictOf errLeaseSuperseded
          (release space twins.now remote twins.server).2)
    | _, _ => none
  | .guard index =>
    match twins.issued[index]?, twins.remote[index]? with
    | some lease, some remote =>
      some
        (verdictOf Store.errLeaseSuperseded
          (twins.locker.guard none twins.now lease),
        verdictOf errLeaseSuperseded
          (guard space twins.now remote twins.server).2)
    | _, _ => none
  | .advance _ => some (.done, .done)

/-- The leases of an answer to `Acquire`. -/
def granted : Except Fault Lease → List Lease
  | .ok lease => [lease]
  | .error _ => []

/-- Both lockers after one call. -/
def step (twins : Twins) : TwinCall → Option Twins
  | .acquire resource ttl =>
    let mine := twins.locker.acquire none twins.now resource ttl
    let remote := acquire space twins.now resource ttl twins.server
    some { twins with
      locker := mine.1
      server := remote.1
      issued := twins.issued ++ granted mine.2
      remote := twins.remote ++ granted remote.2 }
  | .release index =>
    match twins.issued[index]?, twins.remote[index]? with
    | some lease, some remote =>
      some { twins with
        locker := (twins.locker.release none lease).1
        server := (release space twins.now remote twins.server).1 }
    | _, _ => none
  | .guard index =>
    match twins.issued[index]?, twins.remote[index]? with
    | some _, some remote =>
      some { twins with
        server := (guard space twins.now remote twins.server).1 }
    | _, _ => none
  | .advance nanoseconds =>
    some { twins with now := ⟨twins.now.nanos + nanoseconds⟩ }

end Twins

def twinMachine (space : String) : Machine Twins TwinCall where
  initial twins := ∃ now, twins = Twins.new now
  step := Twins.step space

/-! ## What the locks have in common -/

/-- The calls to which the locks give the same answers. -/
def Uniform (twins : Twins) : TwinCall → Prop
  | .acquire resource ttl =>
    (ttl ≤ 0 ∨ ttl.toInt % 1000000 = 0) ∧
      (twins.locker.fence resource).toInt < 2 ^ 53 - 1
  | .release index =>
    ∀ lease held, twins.issued[index]? = some lease →
      twins.locker.held.lookup lease.resource = some held →
        held.expiresAt.after twins.now = false → held.token = lease.token
  | _ => True

/-- The tokens that a double can hold. -/
def Small (token : Int64) : Prop :=
  0 ≤ token.toInt ∧ token.toInt < 2 ^ 53

theorem Small.readNumber {token : Int64} (small : Small token) :
    readNumber (numberText token.toInt) = some token.toInt := by
  rcases small with ⟨lower, upper⟩
  rw [Redis.readNumber, readInt_numberText, map_some, toNumber_eq (by omega)]

/-- What the server holds for the entry of a lock. -/
def heldKey (held : HeldLock) : Held :=
  ⟨.text (numberText held.token.toInt), some held.expiresAt.nanos⟩

/-- The two locks hold the same. -/
structure Twins.Matches (space : String) (twins : Twins) : Prop where
  same : twins.remote = twins.issued
  tokens : ∀ lease ∈ twins.issued, Small lease.token
  small : ∀ resource, Small (twins.locker.fence resource)
  fences : ∀ resource, twins.server.keys (fenceKey space resource) =
      (twins.locker.fences.lookup resource).map fun token =>
        ⟨.text (numberText token.toInt), none⟩
  held : ∀ resource held, twins.locker.held.lookup resource = some held →
      Small held.token ∧
        twins.server.keys (lockKey space resource) = some (heldKey held)
  free : ∀ resource, twins.locker.held.lookup resource = none →
    ∀ now, twins.now.nanos ≤ now →
      twins.server.live now (lockKey space resource) = none

namespace Twins.Matches

variable {space : String} {twins after : Twins}

theorem start (now : Time) : (Twins.new now).Matches space where
  same := rfl
  tokens := forall_mem_nil _
  small _ := ⟨le_rfl, Int.pow_pos (by decide)⟩
  fences _ := rfl
  held _ _ found := by cases found
  free _ _ _ _ := rfl

section Matching

variable (matching : twins.Matches space) (resource : String)
include matching resource

theorem textOf_fence (now : Int) :
    ∃ content,
      twins.server.textOf now (fenceKey space resource) = some content ∧
        readInt (content.getD "0") =
          some (twins.locker.fence resource).toInt := by
  rw [textOf, live, matching.fences, Locker.fence]
  cases twins.locker.fences.lookup resource with
  | none => exact ⟨none, rfl, by decide⟩
  | some token => exact ⟨some _, rfl, readInt_numberText _⟩

/-- The key of a lock is live exactly while its lease is. -/
theorem live_lock :
    twins.server.live twins.now.nanos (lockKey space resource) =
      (twins.locker.held.lookup resource).bind fun held =>
        if held.expiresAt.after twins.now then some (heldKey held)
        else none := by
  cases found : twins.locker.held.lookup resource with
  | none => exact matching.free resource found _ le_rfl
  | some held =>
    rw [live, (matching.held resource held found).2]
    by_cases live : held.expiresAt.after twins.now = true
    · have later := of_decide_eq_true live
      simp [live, heldKey, Held.expired, later]
    · have past : held.expiresAt.nanos ≤ twins.now.nanos :=
        not_lt.mp fun later => live (decide_eq_true later)
      simp [live, heldKey, Held.expired, past]

theorem isSome_live_lock :
    (twins.server.live twins.now.nanos (lockKey space resource)).isSome =
      twins.locker.isHeld twins.now resource := by
  rw [matching.live_lock, Locker.isHeld]
  cases twins.locker.held.lookup resource with
  | none => rfl
  | some held =>
    cases live : held.expiresAt.after twins.now <;> simp [live]

end Matching

end Twins.Matches

/-! ## What the scripts do -/

section Scripts

variable {lock fence token : String} {now : Int} {server : Server}
variable {number : Int}

theorem acquireLock_held
    {milliseconds : Int} (live : (server.live now lock).isSome = true) :
    (acquireLock lock fence milliseconds).run now server =
      (server, .ok (-1)) := by
  have found : (keyExists lock).run now server = (server, .ok true) :=
    congrArg (fun found => (server, Except.ok found)) live
  exact run_bind found

/-- The server after a lock was taken with a new token. -/
def taken (lock fence : String) (number now milliseconds : Int)
    (server : Server) : Server :=
  { server with
    keys := Function.update
      (server.put now fence (.text (numberText number))).keys lock
      (some ⟨.text (numberText number),
        some (now + 1000000 * milliseconds)⟩) }

theorem keys_taken_lock {milliseconds : Int} :
    (taken lock fence number now milliseconds server).keys lock =
      some ⟨.text (numberText number), some (now + 1000000 * milliseconds)⟩ :=
  update_self _ _ _

theorem keys_taken_fence {milliseconds : Int} (apart : lock ≠ fence) :
    (taken lock fence number now milliseconds server).keys fence =
      some ⟨.text (numberText number),
        (server.live now fence).bind Held.deadline⟩ :=
  (update_of_ne apart.symm _ _).trans (update_self _ _ _)

theorem keys_taken_other {key : String} {milliseconds : Int}
    (notLock : key ≠ lock) (notFence : key ≠ fence) :
    (taken lock fence number now milliseconds server).keys key =
      server.keys key :=
  (update_of_ne notLock _ _).trans (update_of_ne notFence _ _)

theorem acquireLock_free {milliseconds : Int} {content : Option String}
    (free : (server.live now lock).isSome = false)
    (found : server.textOf now fence = some content)
    (read : readInt (content.getD "0") = some number)
    (small : (number + 1).natAbs < 2 ^ 53) (positive : 0 < milliseconds) :
    (acquireLock lock fence milliseconds).run now server =
      (taken lock fence (number + 1) now milliseconds server,
        .ok (number + 1)) := by
  have absent : (keyExists lock).run now server = (server, .ok false) :=
    congrArg (fun found => (server, Except.ok found)) free
  have fits : inRange (number + 1) = true := by
    rw [inRange, decide_eq_true_eq]
    omega
  have counted := run_incr found read fits
  have exact := toNumber_eq small
  apply (run_bind absent).trans
  apply (run_bind counted).trans
  apply (run_bind (run_setPX positive)).trans
  rw [exact]
  rfl

theorem releaseLock_absent (found : server.textOf now lock = some none) :
    (releaseLock lock token).run now server = (server, .ok 0) :=
  run_bind (run_get found)

theorem releaseLock_present
    {held : String} (found : server.textOf now lock = some (some held)) :
    (releaseLock lock token).run now server =
      if readNumber held ≠ readNumber token then (server, .ok (-1))
      else (server.remove lock, .ok 1) := by
  apply (run_bind (run_get found)).trans
  by_cases same : readNumber held = readNumber token
  · simp only [same, ne_eq, not_true_eq_false, if_false]
    rfl
  · simp only [same, ne_eq, not_false_eq_true, if_true]
    rfl

theorem guardLock_run {current held : Option String} {presented : Int}
    (counter : server.textOf now fence = some current)
    (counted : readNumber (current.getD "0") = some number)
    (given : readNumber token = some presented)
    (found : server.textOf now lock = some held) :
    (guardLock lock fence token).run now server =
      (server, .ok (if presented < number then -1
        else if held.bind readNumber ≠ some presented then -1 else 1)) := by
  apply (run_bind (run_get counter)).trans
  simp only [counted, given]
  by_cases older : presented < number
  · simp only [older, if_true]
    rfl
  · simp only [older, if_false]
    apply (run_bind (run_get found)).trans
    by_cases same : held.bind readNumber = some presented
    · simp only [same, ne_eq, not_true_eq_false, if_false]
      rfl
    · simp only [same, ne_eq, not_false_eq_true, if_true]
      rfl

end Scripts

/-! ## Every call -/

/-- A lease of whole milliseconds lasts as long on the server. -/
theorem whole_milliseconds
    {ttl : Int64} (whole : ttl ≤ 0 ∨ ttl.toInt % 1000000 = 0) :
    0 < milliseconds (Locker.leaseTTL ttl) ∧
      1000000 * milliseconds (Locker.leaseTTL ttl) =
        (Locker.leaseTTL ttl).toInt := by
  rw [Locker.leaseTTL, milliseconds]
  split
  · decide
  · rename_i positive
    have above : 0 < ttl.toInt := by
      rw [Int64.not_le, Int64.lt_iff_toInt_lt] at positive
      exact positive
    rcases whole with impossible | multiple
    · exact absurd impossible positive
    · rw [Int.tdiv_eq_ediv_of_nonneg above.le]
      omega

namespace Twins.Matches

variable {space : String} {twins : Twins}
variable {lease : Lease}

section Matching

variable (matching : twins.Matches space)
include matching

/-- Both locks refuse, or both hand out the same lease. -/
theorem acquire_cases {resource : String} {ttl : Int64}
    (uniform : Uniform twins (.acquire resource ttl)) :
    (∃ mine theirs, twins.locker.acquire none twins.now resource ttl =
          (twins.locker, .error mine) ∧
        acquire space twins.now resource ttl twins.server =
          (twins.server, .error theirs) ∧
        answerOf Store.errLockHeld Store.errEmptyResource (.error mine) =
          answerOf errLockHeld errEmptyResource (.error theirs)) ∨
      ∃ lease : Lease, lease.resource = resource ∧
        lease.token = twins.locker.fence resource + 1 ∧
        lease.token.toInt = (twins.locker.fence resource).toInt + 1 ∧
        twins.locker.acquire none twins.now resource ttl =
          (⟨twins.locker.held.insert resource ⟨lease.token, lease.expiresAt⟩,
            twins.locker.fences.insert resource lease.token⟩,
            .ok lease) ∧
        ∃ milliseconds, twins.now.nanos + 1000000 * milliseconds =
              lease.expiresAt.nanos ∧
            acquire space twins.now resource ttl twins.server =
              (taken (lockKey space resource) (fenceKey space resource)
                lease.token.toInt twins.now.nanos milliseconds
                twins.server, .ok lease) := by
  rcases uniform with ⟨whole, room⟩
  by_cases empty : resource = ""
  · left
    refine ⟨Store.errEmptyResource, errEmptyResource, ?_, ?_, by decide⟩
    · simp only [Locker.acquire, if_pos empty]
    · rw [acquire, if_pos empty]
  · cases live : twins.locker.isHeld twins.now resource with
    | true =>
      left
      refine ⟨Store.errLockHeld, errLockHeld, ?_, ?_, by decide⟩
      · simp [Locker.acquire, empty, live]
      · rw [acquire, if_neg empty]
        simp only [acquireLock_held
          ((matching.isSome_live_lock resource).trans live)]
        rfl
    | false =>
      right
      have small := matching.small resource
      have next : (twins.locker.fence resource + 1).toInt =
          (twins.locker.fence resource).toInt + 1 :=
        Word.toInt_add_one (by omega)
      rcases matching.textOf_fence resource twins.now.nanos
        with ⟨content, found, read⟩
      rcases whole_milliseconds whole with ⟨positive, lasts⟩
      refine ⟨⟨resource, twins.locker.fence resource + 1,
        twins.now.add (Locker.leaseTTL ttl)⟩, rfl, rfl, next, ?_,
        milliseconds (Locker.leaseTTL ttl), ?_, ?_⟩
      · simp [Locker.acquire, empty, live]
      · rw [lasts]
        rfl
      · have run := acquireLock_free
          ((matching.isSome_live_lock resource).trans live) found read
          (by rcases small with ⟨lower, _⟩; omega) positive
        rw [acquire, if_neg empty]
        simp only [run, next]
        rw [if_neg (by rcases small with ⟨lower, _⟩; omega),
          ← next, ofInt_toInt]

/-- A new lease is entered on both sides. -/
theorem enter {milliseconds : Int} (small : Small lease.token)
    (lasts : twins.now.nanos + 1000000 * milliseconds =
      lease.expiresAt.nanos) :
    Twins.Matches space
      { twins with
        locker := ⟨twins.locker.held.insert lease.resource
            ⟨lease.token, lease.expiresAt⟩,
          twins.locker.fences.insert lease.resource lease.token⟩
        server := taken (lockKey space lease.resource)
          (fenceKey space lease.resource) lease.token.toInt
          twins.now.nanos milliseconds twins.server
        issued := twins.issued ++ [lease]
        remote := twins.remote ++ [lease] } := by
  have apart := lockKey_ne_fenceKey space
  constructor
  · exact congrArg (· ++ [lease]) matching.same
  · exact forall_mem_concat matching.tokens small
  · intro resource
    rw [Locker.fence]
    by_cases same : resource = lease.resource
    · rw [same, lookup_insert]
      exact small
    · rw [lookup_insert_ne same]
      exact matching.small resource
  · intro resource
    dsimp only
    by_cases same : resource = lease.resource
    · subst same
      have endless : (twins.server.live twins.now.nanos
          (fenceKey space lease.resource)).bind Held.deadline = none := by
        rw [live, matching.fences]
        cases twins.locker.fences.lookup lease.resource <;> rfl
      rw [keys_taken_fence (apart _ _), lookup_insert, endless]
      rfl
    · rw [keys_taken_other (apart _ _).symm fun equal =>
        same (fenceKey_injective equal), lookup_insert_ne same]
      exact matching.fences resource
  · intro resource held found
    dsimp only
    rcases GoMap.of_lookup_insert found with ⟨rfl, ⟨⟩⟩ | ⟨same, before⟩
    · rw [keys_taken_lock, heldKey, lasts]
      exact ⟨small, rfl⟩
    · rw [keys_taken_other (fun equal => same (lockKey_injective equal))
        (apart _ _)]
      exact matching.held resource held before
  · intro resource absent now later
    dsimp only at later ⊢
    rcases GoMap.of_lookup_insert absent with ⟨_, ⟨⟩⟩ | ⟨same, before⟩
    rw [live, keys_taken_other
      (fun equal => same (lockKey_injective equal)) (apart _ _)]
    exact matching.free resource before now later

/-- The entry of a resource is given up on both sides. -/
theorem vacate (resource : String) (server : Server)
    (others : ∀ key, key ≠ lockKey space resource →
      server.keys key = twins.server.keys key)
    (gone : ∀ now, twins.now.nanos ≤ now →
      server.live now (lockKey space resource) = none) :
    Twins.Matches space
      { twins with
        locker := { twins.locker with
          held := twins.locker.held.erase resource }
        server := server } := by
  refine { matching with fences := ?_, held := ?_, free := ?_ }
  · intro other
    dsimp only
    rw [others _ (lockKey_ne_fenceKey space _ _).symm]
    exact matching.fences other
  · intro other held found
    dsimp only
    rcases GoMap.of_lookup_erase found with ⟨same, before⟩
    rw [others _ fun equal => same (lockKey_injective equal)]
    exact matching.held other held before
  · intro other absent now later
    dsimp only at absent later ⊢
    by_cases same : other = resource
    · rw [same]
      exact gone now later
    · rw [lookup_erase_ne same] at absent
      rw [live, others _ fun equal => same (lockKey_injective equal)]
      exact matching.free other absent now later

theorem textOf_lock (resource : String) :
    twins.server.textOf twins.now.nanos (lockKey space resource) =
      some ((twins.locker.held.lookup resource).bind fun held =>
        if held.expiresAt.after twins.now then
          some (numberText held.token.toInt)
        else none) := by
  rw [textOf, matching.live_lock]
  cases twins.locker.held.lookup resource with
  | none => rfl
  | some held =>
    cases live : held.expiresAt.after twins.now <;> simp [live, heldKey]

theorem release_cases (issued : lease ∈ twins.issued)
    (uniform : ∀ held, twins.locker.held.lookup lease.resource = some held →
        held.expiresAt.after twins.now = false → held.token = lease.token) :
    verdictOf Store.errLeaseSuperseded (twins.locker.release none lease).2 =
      verdictOf errLeaseSuperseded
        (release space twins.now lease twins.server).2 ∧ Twins.Matches space
      { twins with
        locker := (twins.locker.release none lease).1
        server := (release space twins.now lease twins.server).1 } := by
  have small := matching.tokens lease issued
  have text := matching.textOf_lock lease.resource
  cases found : twins.locker.held.lookup lease.resource with
  | none =>
    rw [found] at text
    simp only [release, releaseLock_absent text, Locker.release, found]
    exact ⟨rfl, matching⟩
  | some held =>
    have entry := matching.held lease.resource held found
    rw [found, bind_some] at text
    cases live : held.expiresAt.after twins.now with
    | false =>
      have same := uniform held found live
      rw [live] at text
      simp only [release, releaseLock_absent text, Locker.release,
        found, same, ne_eq, not_true_eq_false, if_false]
      refine ⟨rfl, matching.vacate lease.resource twins.server
        (fun _ _ => rfl) ?_⟩
      intro now later
      have past : held.expiresAt.nanos ≤ twins.now.nanos :=
        not_lt.mp (of_decide_eq_false live)
      rw [Server.live, entry.2]
      simp [Held.expired, heldKey, past.trans later]
    | true =>
      rw [live] at text
      have run := @releaseLock_present _ (numberText lease.token.toInt)
        _ _ _ text
      rw [entry.1.readNumber, small.readNumber] at run
      by_cases same : held.token = lease.token
      · rw [same] at run
        simp only [release, run, Locker.release, found, same, ne_eq,
          not_true_eq_false, if_false]
        refine ⟨rfl, matching.vacate lease.resource _ ?_ ?_⟩
        · intro key other
          exact update_of_ne other _ _
        · intro now _
          rw [Server.live, Server.remove]
          simp
      · have different : held.token.toInt ≠ lease.token.toInt :=
          fun equal => same (toInt_inj.mp equal)
        simp only [release, run, Locker.release, found, same,
          different, ne_eq, some.injEq, not_false_eq_true,
          if_true]
        exact ⟨rfl, matching⟩

theorem guard_cases (issued : lease ∈ twins.issued) :
    verdictOf Store.errLeaseSuperseded
        (twins.locker.guard none twins.now lease) =
      verdictOf errLeaseSuperseded
        (guard space twins.now lease twins.server).2 ∧
      (guard space twins.now lease twins.server).1 = twins.server := by
  have small := matching.tokens lease issued
  rcases matching.textOf_fence lease.resource twins.now.nanos
    with ⟨content, counter, read⟩
  have counted : readNumber (content.getD "0") =
      some (twins.locker.fence lease.resource).toInt := by
    rcases matching.small lease.resource with ⟨lower, upper⟩
    rw [readNumber, read, map_some, toNumber_eq (by omega)]
  have run := guardLock_run counter counted small.readNumber
    (matching.textOf_lock lease.resource)
  have entry : ((twins.locker.held.lookup lease.resource).bind fun held =>
      if held.expiresAt.after twins.now then
        some (numberText held.token.toInt)
      else none).bind readNumber = some lease.token.toInt ↔
        ∃ held, twins.locker.held.lookup lease.resource = some held ∧
          held.expiresAt.after twins.now = true ∧
            held.token = lease.token := by
    cases found : twins.locker.held.lookup lease.resource with
    | none => simp
    | some held =>
      have known := (matching.held _ held found).1.readNumber
      cases live : held.expiresAt.after twins.now <;>
        simp [live, known, toInt_inj]
  by_cases admitted : ¬lease.token < twins.locker.fence lease.resource ∧
      ∃ held, twins.locker.held.lookup lease.resource = some held ∧
        held.expiresAt.after twins.now = true ∧ held.token = lease.token
  · rcases admitted with ⟨latest, held, found, live, same⟩
    rw [if_neg (fun less => latest (lt_iff_toInt_lt.mpr less)),
      if_neg (not_not.mpr (entry.mpr ⟨held, found, live, same⟩))] at run
    have ahead : twins.now.before held.expiresAt = true := live
    rw [guard, run]
    simp [Locker.guard, found, same, latest, ahead, verdictOf]
  · have refused : twins.locker.guard none twins.now lease =
        some Store.errLeaseSuperseded := by
      rcases Locker.guard_cases twins.now lease twins.locker
        with passed | refused
      · rcases Locker.guard_admits passed
          with ⟨held, found, same, latest, live⟩
        exact absurd ⟨latest, held, found, live, same⟩ admitted
      · exact refused
    have negative : (guardLock (lockKey space lease.resource)
        (fenceKey space lease.resource)
        (numberText lease.token.toInt)).run twins.now.nanos twins.server =
          (twins.server, .ok (-1)) := by
      rw [run]
      by_cases behind : lease.token.toInt <
          (twins.locker.fence lease.resource).toInt
      · rw [if_pos behind]
      · have latest : ¬lease.token < twins.locker.fence lease.resource :=
          fun less => behind (lt_iff_toInt_lt.mp less)
        rw [if_neg behind, if_pos fun known =>
          admitted ⟨latest, entry.mp known⟩]
    rw [guard, negative, refused]
    exact ⟨by simp [verdictOf], rfl⟩

theorem advance (nanoseconds : Nat) : Twins.Matches space
      { twins with now := ⟨twins.now.nanos + nanoseconds⟩ } := by
  refine { matching with free := ?_ }
  intro resource absent now later
  apply matching.free resource absent
  dsimp only at later
  omega

theorem presented {index : Nat} {remote : Lease}
    (present : twins.issued[index]? = some lease)
    (presentRemote : twins.remote[index]? = some remote) :
    remote = lease ∧ lease ∈ twins.issued := by
  rw [matching.same, present] at presentRemote
  exact ⟨(some.inj presentRemote).symm, mem_of_getElem? present⟩

/-- The two locks give the same answer to a uniform call. -/
theorem agree
    {call : TwinCall} (uniform : Uniform twins call) {mine theirs : Answer}
    (answered : twins.answers space call = some (mine, theirs)) :
    mine = theirs := by
  cases call with
  | acquire resource ttl =>
    cases answered
    rcases matching.acquire_cases uniform with
      ⟨first, second, refused, refusedToo, same⟩ |
        ⟨lease, _, _, _, acquired, _, _, acquiredToo⟩
    · rw [refused, refusedToo]
      exact same
    · rw [acquired, acquiredToo]
      rfl
  | release index =>
    simp only [Twins.answers] at answered
    split at answered
    · rename_i lease remote present presentRemote
      rcases matching.presented present presentRemote with ⟨rfl, issued⟩
      cases answered
      exact (matching.release_cases issued fun held =>
        uniform remote held present).1
    · cases answered
  | guard index =>
    simp only [Twins.answers] at answered
    split at answered
    · rename_i lease remote present presentRemote
      rcases matching.presented present presentRemote with ⟨rfl, issued⟩
      cases answered
      exact (matching.guard_cases issued).1
    · cases answered
  | advance nanoseconds =>
    cases answered
    rfl

theorem step {after : Twins} {call : TwinCall} (uniform : Uniform twins call)
    (step : twins.step space call = some after) : after.Matches space := by
  cases call with
  | acquire resource ttl =>
    have room := uniform.2
    rcases matching.acquire_cases uniform with
      ⟨first, second, refused, refusedToo, same⟩ |
        ⟨lease, rfl, _, token, acquired, _, lasts, acquiredToo⟩
    · simp only [Twins.step, refused, refusedToo, Twins.granted,
        append_nil, some.injEq] at step
      subst step
      exact matching
    · simp only [Twins.step, acquired, acquiredToo, Twins.granted,
        some.injEq] at step
      subst step
      have small := matching.small lease.resource
      apply matching.enter _ lasts
      rw [Small, token]
      rcases small with ⟨lower, _⟩
      constructor <;> omega
  | release index =>
    simp only [Twins.step] at step
    split at step
    · rename_i lease remote present presentRemote
      rcases matching.presented present presentRemote with ⟨rfl, issued⟩
      cases step
      exact (matching.release_cases issued fun held =>
        uniform remote held present).2
    · cases step
  | guard index =>
    simp only [Twins.step] at step
    split at step
    · rename_i lease remote present presentRemote
      rcases matching.presented present presentRemote with ⟨rfl, issued⟩
      cases step
      rw [(matching.guard_cases issued).2]
      exact matching
    · cases step
  | advance nanoseconds =>
    cases step
    exact matching.advance nanoseconds

end Matching

end Twins.Matches

/--
In every run whose calls are uniform, the locker and the Redis store give the
same answer to every uniform call.
-/
theorem locks_agree
    (space : String) {twins : Twins}
    (reachable : (twinMachine space).ReachableUnder Uniform twins)
    {call : TwinCall} (uniform : Uniform twins call)
    {mine theirs : Answer}
    (answered : twins.answers space call = some (mine, theirs)) :
    mine = theirs := by
  have matching : twins.Matches space := by
    apply reachable.invariant
    · rintro _ ⟨now, rfl⟩
      exact Twins.Matches.start now
    · intro before action after _ matching permitted step
      exact matching.step permitted step
  exact matching.agree uniform answered

/-! ### A takeover and a stale release -/

def freshTwins : Twins := Twins.new ⟨0⟩

def leasedTwins : Twins :=
  (freshTwins.step "ironclaw" (.acquire "owner" 1000000)).get (by decide)

def expiredTwins : Twins := { leasedTwins with now := ⟨2000000⟩ }

def takenTwins : Twins :=
  (expiredTwins.step "ironclaw" (.acquire "owner" 1000000)).get (by decide)

theorem takenTwins_reachable :
    (twinMachine "ironclaw").ReachableUnder Uniform takenTwins := by
  have start : (twinMachine "ironclaw").ReachableUnder Uniform
      freshTwins :=
    Machine.ReachableUnder.start ⟨⟨0⟩, rfl⟩
  have leased : (twinMachine "ironclaw").ReachableUnder Uniform
      leasedTwins :=
    @Machine.ReachableUnder.next _ _ _ _ _ _ (.acquire "owner" 1000000)
      start ⟨Or.inr (by decide), by decide⟩
      (some_get _).symm
  have expired : (twinMachine "ironclaw").ReachableUnder Uniform
      expiredTwins :=
    @Machine.ReachableUnder.next _ _ _ _ _ _ (.advance 2000000)
      leased trivial rfl
  exact @Machine.ReachableUnder.next _ _ _ _ _ _
    (.acquire "owner" 1000000) expired
    ⟨Or.inr (by decide), by decide⟩ (some_get _).symm

/-- The new holder passes `Guard` on both sides. -/
theorem locks_agree_example : ∃ mine theirs,
      takenTwins.answers "ironclaw" (.guard 1) = some (mine, theirs) ∧
        mine = theirs ∧ mine = .done := by
  have answered : takenTwins.answers "ironclaw" (.guard 1) =
      some (.done, .done) := by
    decide
  have same := locks_agree "ironclaw" takenTwins_reachable
    (show Uniform takenTwins (.guard 1) from trivial) answered
  exact ⟨.done, .done, answered, same, rfl⟩

/-- The second lease expires too; then the first one is released. -/
theorem stale_release_differs :
    ∃ twins, (twinMachine "ironclaw").Reachable twins ∧
      twins.answers "ironclaw" (.release 0) = some (.superseded, .done) := by
  refine ⟨{ takenTwins with now := ⟨4000000⟩ }, ?_, by decide⟩
  exact @Machine.Reachable.next _ _ _ _ _ (.advance 2000000)
    takenTwins_reachable.reachable rfl

end Ironclaw.RedisStore
