import Ironclaw.Store.Lock

/-!
# Safety of fencing tokens

Whatever the clients do and whatever the clock says, the entry of a resource
belongs to the newest lease that was issued for it, and that lease was not
released.  Everything else follows: a lease that is not the newest one is
refused for good.

Tokens have 64 bits, so all of this ends with the token `2^63`.
-/

namespace Ironclaw.Store

open Lib Domain List Option Int64 AList Locker

/-- A locker, the leases it has issued, and those that were released. -/
structure Clients where
  locker : Locker
  issued : List Lease
  released : List Lease

/-- A call of some client, presenting an issued lease. -/
inductive LockCall where
  | acquire (context : Option Fault) (now : Time) (resource : String)
      (ttl : Int64)
  | release (context : Option Fault) (lease : Nat)
  | guard (context : Option Fault) (now : Time) (lease : Nat)

namespace Clients

def new : Clients := ⟨Locker.new, [], []⟩

def step (clients : Clients) : LockCall → Option Clients
  | .acquire context now resource ttl =>
    match clients.locker.acquire context now resource ttl with
    | (locker, .ok lease) =>
      some { clients with
        locker := locker
        issued := clients.issued ++ [lease] }
    | (locker, .error _) => some { clients with locker := locker }
  | .release context index =>
    clients.issued[index]?.map fun lease =>
      match clients.locker.release context lease with
      | (locker, none) =>
        { clients with
          locker := locker
          released := clients.released ++ [lease] }
      | (locker, some _) => { clients with locker := locker }
  | .guard _ _ index => clients.issued[index]?.map fun _ => clients

end Clients

/-- The leases of a resource, in order. -/
def leasesOn (resource : String) (leases : List Lease) : List Lease :=
  leases.filter fun lease => lease.resource = resource

namespace Clients

/-- The leases issued for a resource, in order. -/
def issuedOn (resource : String) (clients : Clients) : List Lease :=
  leasesOn resource clients.issued

end Clients

def lockMachine : Machine Clients LockCall where
  initial clients := clients = Clients.new
  step := Clients.step

/-! ## What every reachable state satisfies -/

section Leases

variable {resource : String} {lease : Lease} {leases : List Lease}

theorem mem_leasesOn : lease ∈ leasesOn resource leases ↔
      lease ∈ leases ∧ lease.resource = resource := by
  rw [leasesOn, mem_filter, decide_eq_true_eq]

theorem leasesOn_concat_self (same : lease.resource = resource) :
    leasesOn resource (leases ++ [lease]) =
      leasesOn resource leases ++ [lease] := by
  simp [leasesOn, filter_append, same]

theorem leasesOn_concat_other (other : lease.resource ≠ resource) :
    leasesOn resource (leases ++ [lease]) = leasesOn resource leases := by
  simp [leasesOn, filter_append, other]

end Leases

namespace Clients

variable {clients after : Clients} {resource : String}

/-- Tokens are numbered as they were issued. -/
structure Sound (clients : Clients) : Prop where
  fence : ∀ resource, clients.locker.fence resource =
    Int64.ofNat (clients.issuedOn resource).length
  tokens : ∀ resource, (clients.issuedOn resource).map Lease.token =
    (List.range (clients.issuedOn resource).length).map fun index =>
      Int64.ofNat (index + 1)
  known : clients.released ⊆ clients.issued
  /-- The entry of a resource is that of its newest lease. -/
  current : ∀ resource held, clients.locker.held.lookup resource = some held →
      ∃ lease ∈ clients.issuedOn resource,
        lease.token = held.token ∧ lease.expiresAt = held.expiresAt ∧
          held.token = clients.locker.fence resource ∧
            ((clients.issuedOn resource).length < 2 ^ 63 →
              lease ∉ clients.released)

namespace Sound

theorem token_toInt {count : Nat} (bound : count < 2 ^ 63) :
    (ofNat count).toInt = count :=
  toInt_ofNat_of_lt bound

theorem exists_number (sound : clients.Sound) {lease : Lease}
    (issued : lease ∈ clients.issuedOn resource) :
    ∃ number, 1 ≤ number ∧ number ≤ (clients.issuedOn resource).length ∧
        lease.token = ofNat number := by
  have listed := mem_map_of_mem (f := Lease.token) issued
  rw [sound.tokens] at listed
  rcases mem_map.mp listed with ⟨index, member, equal⟩
  exact ⟨index + 1, Nat.le_add_left 1 index, mem_range.mp member, equal.symm⟩

theorem tokens_increasing (sound : clients.Sound)
    (bound : (clients.issuedOn resource).length < 2 ^ 63) :
    (clients.issuedOn resource).Pairwise fun first second =>
      first.token < second.token := by
  have tokens : ((clients.issuedOn resource).map Lease.token).Pairwise
      (· < ·) := by
    rw [sound.tokens]
    apply pairwise_map.mpr
    apply Pairwise.imp_of_mem _ pairwise_lt_range
    intro first second firstMember secondMember less
    have firstBound := mem_range.mp firstMember
    have secondBound := mem_range.mp secondMember
    rw [lt_iff_toInt_lt, token_toInt (by omega), token_toInt (by omega)]
    omega
  exact pairwise_map.mp tokens

theorem eq_of_token (sound : clients.Sound)
    (bound : (clients.issuedOn resource).length < 2 ^ 63)
    {first second : Lease} (firstIssued : first ∈ clients.issuedOn resource)
    (secondIssued : second ∈ clients.issuedOn resource)
    (same : first.token = second.token) : first = second := by
  have distinct : ((clients.issuedOn resource).map Lease.token).Nodup := by
    apply pairwise_map.mpr
    apply (sound.tokens_increasing bound).imp
    intro left right less equal
    rw [equal] at less
    exact Int64.lt_irrefl less
  exact inj_on_of_nodup_map distinct firstIssued secondIssued same

theorem start : Clients.new.Sound where
  fence _ := rfl
  tokens _ := rfl
  known := nil_subset _
  current _ _ found := by cases found

theorem le_current (sound : clients.Sound) {held : HeldLock}
    (bound : (clients.issuedOn resource).length < 2 ^ 63)
    (found : clients.locker.held.lookup resource = some held)
    {lease : Lease} (issued : lease ∈ clients.issuedOn resource) :
    lease.token ≤ held.token := by
  rcases sound.current resource held found with ⟨_, _, _, _, newest, _⟩
  rcases sound.exists_number issued with ⟨number, _, upper, equal⟩
  rw [newest, sound.fence, equal, le_iff_toInt_le,
    token_toInt (by omega), token_toInt bound]
  exact Int.ofNat_le.mpr upper

theorem acquire (sound : clients.Sound) {lease : Lease}
    (next : lease.token = clients.locker.fence lease.resource + 1) :
    Sound
      ⟨⟨clients.locker.held.insert lease.resource
          ⟨lease.token, lease.expiresAt⟩,
        clients.locker.fences.insert lease.resource lease.token⟩,
        clients.issued ++ [lease], clients.released⟩ := by
  have number : lease.token = ofNat
      ((leasesOn lease.resource clients.issued).length + 1) := by
    rw [next, sound.fence, Word.ofNat_succ]
    rfl
  have fence : ∀ other, Locker.fence other
      ⟨clients.locker.held.insert lease.resource
          ⟨lease.token, lease.expiresAt⟩,
        clients.locker.fences.insert lease.resource lease.token⟩ =
      if other = lease.resource then lease.token
      else clients.locker.fence other := by
    intro other
    by_cases same : other = lease.resource
    · rw [if_pos same, same]
      exact congrArg (Option.getD · 0) (lookup_insert _)
    · rw [if_neg same]
      exact congrArg (Option.getD · 0) (lookup_insert_ne same)
  have listed : ∀ other, leasesOn other (clients.issued ++ [lease]) =
      if other = lease.resource then
        leasesOn other clients.issued ++ [lease]
      else leasesOn other clients.issued := by
    intro other
    by_cases same : other = lease.resource
    · rw [if_pos same, leasesOn_concat_self same.symm]
    · rw [if_neg same, leasesOn_concat_other (Ne.symm same)]
  constructor
  · intro other
    rw [issuedOn, listed, fence]
    split
    · rename_i same
      rw [length_append, same]
      exact number
    · exact sound.fence other
  · intro other
    have before := sound.tokens other
    rw [issuedOn] at before
    rw [issuedOn, listed]
    split
    · rename_i same
      subst same
      rw [length_append, length_singleton, range_succ,
        map_append, map_append, before, map_singleton,
        number]
      rfl
    · exact before
  · exact List.Subset.trans sound.known (subset_append_left _ _)
  · intro other held found
    rw [issuedOn, listed, fence]
    rcases GoMap.of_lookup_insert found with ⟨rfl, ⟨⟩⟩ | ⟨same, before⟩
    · rw [if_pos rfl, if_pos rfl]
      refine ⟨lease, mem_append_right _ (mem_singleton_self _),
        rfl, rfl, rfl, ?_⟩
      intro bound released
      rw [length_append, length_singleton] at bound
      have issued := mem_leasesOn.mpr ⟨sound.known released, rfl⟩
      rcases sound.exists_number issued with ⟨older, _, upper, equal⟩
      have numbers := congrArg toInt (number.symm.trans equal)
      rw [issuedOn] at upper
      rw [token_toInt (by omega), token_toInt (by omega)] at numbers
      omega
    · rw [if_neg same, if_neg same]
      exact sound.current other held before

theorem release (sound : clients.Sound) {lease : Lease}
    (issued : lease ∈ clients.issued) (held : GoMap String HeldLock)
    (removed : ∀ resource current, held.lookup resource = some current →
      resource ≠ lease.resource ∧
        clients.locker.held.lookup resource = some current) :
    Sound ⟨{ clients.locker with held := held }, clients.issued,
      clients.released ++ [lease]⟩ where
  fence := sound.fence
  tokens := sound.tokens
  known := forall_mem_concat (fun _ old => sound.known old) issued
  current := by
    intro resource current found
    rcases removed resource current found with ⟨other, before⟩
    rcases sound.current resource current before
      with ⟨newest, member, token, expires, fence, kept⟩
    refine ⟨newest, member, token, expires, fence, ?_⟩
    intro bound released
    rcases mem_append.mp released with old | new
    · exact kept bound old
    · rw [mem_singleton.mp new] at member
      exact other (mem_leasesOn.mp member).2.symm

theorem step (sound : clients.Sound) {call : LockCall}
    (step : clients.step call = some after) : after.Sound := by
  cases call with
  | acquire context now resource ttl =>
    rcases acquire_cases context now resource ttl clients.locker
      with ⟨fault, refused⟩ | ⟨_, acquired⟩
    · simp only [Clients.step, refused, some.injEq] at step
      subst step
      exact sound
    · simp only [Clients.step, acquired, some.injEq] at step
      subst step
      exact @Sound.acquire _ sound ⟨resource,
        clients.locker.fence resource + 1,
        now.add (leaseTTL ttl)⟩ rfl
  | release context index =>
    rcases map_eq_some_iff.mp step with ⟨lease, present, result⟩
    have issued := mem_of_getElem? present
    rcases release_cases context lease clients.locker with
      ⟨fault, refused⟩ | ⟨absent, done⟩ | ⟨current, found, same, done⟩
    · simp only [refused] at result
      subst result
      exact sound
    · simp only [done] at result
      subst result
      apply sound.release issued clients.locker.held
      intro resource current found
      refine ⟨?_, found⟩
      rintro rfl
      rw [absent] at found
      cases found
    · simp only [done] at result
      subst result
      apply sound.release issued
      exact fun resource other kept => GoMap.of_lookup_erase kept
  | guard context now index =>
    rcases map_eq_some_iff.mp step with ⟨lease, _, rfl⟩
    exact sound

end Sound

theorem sound_of_reachable (reachable : lockMachine.Reachable clients) :
    clients.Sound := by
  apply reachable.invariant
  · rintro _ rfl
    exact Sound.start
  · intro before call after _ sound step
    exact sound.step step

/-- What a lease that passes `Guard` must be. -/
theorem Sound.admitted (sound : clients.Sound)
    (bound : (clients.issuedOn resource).length < 2 ^ 63)
    {lease : Lease} (issued : lease ∈ clients.issuedOn resource)
    {context : Option Fault} {now : Time}
    (admitted : clients.locker.guard context now lease = none) :
    (∀ other ∈ clients.issuedOn resource, other.token ≤ lease.token) ∧
      lease ∉ clients.released ∧ lease.expiresAt.after now = true := by
  rcases guard_admits admitted with ⟨held, found, same, _, live⟩
  rw [(mem_leasesOn.mp issued).2] at found
  rcases sound.current resource held found
    with ⟨newest, member, token, expires, _, kept⟩
  have equal := sound.eq_of_token bound member issued (token.trans same)
  subst equal
  refine ⟨?_, kept bound, ?_⟩
  · intro other otherIssued
    rw [token]
    exact sound.le_current bound found otherIssued
  · rw [expires]
    exact live

end Clients

/-- The first lease expires and another client takes over. -/
def takeover : List LockCall :=
  [.acquire none ⟨0⟩ "owner:device-004" 300,
    .acquire none ⟨600⟩ "owner:device-004" 30000]

def takenOver : Clients :=
  (lockMachine.run Clients.new takeover).get (by decide)

theorem takenOver_reachable : lockMachine.Reachable takenOver := by
  have start : lockMachine.Reachable Clients.new :=
    Machine.Reachable.start rfl
  exact start.run (some_get _).symm

/-- Leases of a nanosecond, taken one after the other. -/
theorem exists_issued (count : Nat) :
    ∃ clients, lockMachine.Reachable clients ∧
      (clients.issuedOn "owner").length = count ∧
        clients.locker.isHeld ⟨count⟩ "owner" = false := by
  induction count with
  | zero => exact ⟨Clients.new, Machine.Reachable.start rfl, rfl, rfl⟩
  | succ count induction =>
    rcases induction with ⟨clients, reachable, length, free⟩
    let lease : Lease := ⟨"owner", clients.locker.fence "owner" + 1,
      ⟨count + 1⟩⟩
    refine ⟨⟨⟨clients.locker.held.insert "owner"
        ⟨lease.token, lease.expiresAt⟩,
      clients.locker.fences.insert "owner" lease.token⟩,
      clients.issued ++ [lease], clients.released⟩, ?_, ?_, ?_⟩
    · apply @Machine.Reachable.next _ _ _ _ _
        (.acquire none ⟨count⟩ "owner" 1) reachable
      rcases acquire_cases none ⟨count⟩ "owner" 1 clients.locker
        with ⟨fault, refused⟩ | ⟨_, acquired⟩
      · simp [acquire, free] at refused
      · simp only [lockMachine, Clients.step, acquired]
        rfl
    · have listed : leasesOn "owner" (clients.issued ++ [lease]) =
          leasesOn "owner" clients.issued ++ [lease] :=
        leasesOn_concat_self rfl
      rw [Clients.issuedOn, listed, length_append]
      exact congrArg (· + 1) length
    · simp [isHeld, Time.after, lease]

end Ironclaw.Store
