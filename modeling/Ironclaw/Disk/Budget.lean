import Ironclaw.Disk.Outcome

/-!
# The caps of a spool

The number of entries never exceeds its limit, whichever file system calls
fail.  The bytes stay within the budget as long as no removal of an eviction
fails: an `Enqueue` whose eviction fails writes all the same.
-/

namespace Ironclaw.Disk

open Lib Option Int64 Program

/-! ## The counter of bytes -/

/-- The counter of bytes is the sum of the sizes, and did not wrap. -/
structure Weighs
    (maxBytes : Int64) (directory : Directory) (spool : Spool) :
    Prop extends Measures maxBytes directory spool where
  bytes_eq : spool.bytes = Int64.ofNat (spooledBytes directory)
  fits : spooledBytes directory < 2 ^ 63

section Weighing

variable {maxBytes : Int64} {directory after : Directory}
variable {spool : Spool}

section Weighs

variable (weighs : Weighs maxBytes directory spool)
include weighs

theorem Weighs.of_sameEntries (same : SameEntries directory after) :
    Weighs maxBytes after spool where
  toMeasures := weighs.toMeasures.of_sameEntries same
  bytes_eq := by
    rw [same.spooledBytes_eq]
    exact weighs.bytes_eq
  fits := by
    rw [same.spooledBytes_eq]
    exact weighs.fits

theorem Weighs.bytes_sub
    {entry : Entry} (queued : entry ∈ queueOf directory.journal) :
    spool.bytes - Int64.ofNat entry.payload.length =
        Int64.ofNat (spooledBytes (directory.without entry.name)) ∧
      spooledBytes (directory.without entry.name) ≤
        spooledBytes directory := by
  have split := weighs.stored.spooledBytes_without queued
  constructor
  · rw [weighs.bytes_eq, split, ofNat_add]
    exact add_sub_cancel_left _ _
  · omega

theorem Weighs.forget {name : String} (listed : name ∈ spool.order) :
    Weighs maxBytes (directory.without name) (spool.forget name) := by
  have measures := weighs.toMeasures.forget listed
  obtain ⟨entry, queued, rfl⟩ := weighs.lists.mem_order.mp listed
  obtain ⟨left, less⟩ := weighs.bytes_sub queued
  have fits := Nat.lt_of_le_of_lt less weighs.fits
  refine ⟨measures, ?_, fits⟩
  simp only [Spool.forget, weighs.sized entry queued, left]
  exact if_neg (Word.ofNat_nonneg fits)

end Weighs

/-- What an eviction keeps, with the bytes that are left. -/
def Lightens
    (maxBytes : Int64) (most : Nat) (spool : Spool)
    (directory : Directory) : Prop :=
  Weighs maxBytes directory spool ∧ spooledBytes directory ≤ most

theorem evicting_lightens (maxBytes : Int64) (most : Nat) :
    Evicting (Lightens maxBytes most)
      (fun after => Limited maxBytes after ∧ spooledBytes after ≤ most) where
  stored holds := holds.1.stored
  lists holds := holds.1.lists
  crashes holds := ⟨holds.1.toLimited, holds.2⟩
  removes := by
    rintro spool directory oldest rest first ⟨weighs, bound⟩
    have listed : oldest ∈ spool.order := by simp [first]
    have left := weighs.forget listed
    obtain ⟨entry, queued, rfl⟩ := weighs.lists.mem_order.mp listed
    exact ⟨⟨left.toMeasures.of_eq rfl rfl rfl rfl, left.bytes_eq,
      left.fits⟩, (weighs.bytes_sub queued).2.trans bound⟩
  fails := by
    rintro spool directory ⟨weighs, bound⟩
    exact ⟨⟨weighs.toMeasures.of_eq rfl rfl rfl rfl, weighs.bytes_eq,
      weighs.fits⟩, bound⟩

/-! ## The operations -/

/-- The budget of a spool as a number. -/
def budget (maxBytes : Int64) : Nat := maxBytes.toInt.toNat

/-- The counter of bytes after an `Enqueue`, and what the directory holds. -/
structure Charged
    (maxBytes : Int64) (most : Nat) (result : Spool × Option Fault)
    (after : Directory) : Prop where
  measures : Measures maxBytes after result.1
  bytes_eq : result.1.bytes = Int64.ofNat (spooledBytes after)
  within : spooledBytes after ≤ most

/-- A spool that has made room for a payload. -/
def Roomy
    (maxBytes : Int64) (most : Nat) (payload : Payload) (spool : Spool)
    (directory : Directory) : Prop :=
  Weighs maxBytes directory spool ∧
    spooledBytes directory + payload.length ≤ most

theorem le_budget {size : Nat} (bound : size < 2 ^ 63)
    (small : ¬maxBytes < Int64.ofNat size) : size ≤ budget maxBytes := by
  rw [lt_iff_toInt_lt, toInt_ofNat_of_lt bound] at small
  rw [budget]
  omega

theorem enqueuing_charged (most : Nat) (payload : Payload) :
    Enqueuing payload (Roomy maxBytes most payload) (Charged maxBytes most)
      (fun after => Limited maxBytes after ∧ spooledBytes after ≤ most) where
  stored roomy := roomy.1.stored
  lists roomy := roomy.1.lists
  full := by
    rintro evicted middle ⟨weighs, bound⟩ _
    exact ⟨weighs.toMeasures.of_eq rfl rfl rfl rfl, weighs.bytes_eq,
      by omega⟩
  draws roomy _ := roomy.1.exists_draws
  fails := by
    rintro evicted middle after fault sequence ⟨weighs, bound⟩ _ _ same _
    have kept := weighs.of_sameEntries same
    refine ⟨kept.toMeasures.of_eq rfl rfl rfl rfl, kept.bytes_eq, ?_⟩
    rw [same.spooledBytes_eq]
    omega
  publishes := by
    rintro evicted middle after fault sequence ⟨weighs, bound⟩ room draws
      stored published _
    refine ⟨weighs.toMeasures.append room draws stored published, ?_, ?_⟩
    · change evicted.bytes + _ = _
      rw [weighs.bytes_eq, published.spooledBytes_eq, ofNat_add]
    · rw [published.spooledBytes_eq]
      exact bound
  dies := by
    rintro evicted middle after sequence ⟨weighs, bound⟩ room draws cut
    rcases cut with ⟨stored, same | published⟩
    · refine ⟨weighs.toLimited.of_sameEntries same, ?_⟩
      rw [same.spooledBytes_eq]
      omega
    · refine ⟨(weighs.toMeasures.append room draws stored
        published).toLimited, ?_⟩
      rw [published.spooledBytes_eq]
      exact bound

theorem Weighs.charged {most : Nat} (weighs : Weighs maxBytes directory spool)
    (bound : spooledBytes directory ≤ most) (fault : Option Fault)
    (dropped : Int64) :
    Charged maxBytes most ({ spool with dropped := dropped }, fault)
      directory :=
  ⟨weighs.toMeasures.of_eq rfl rfl rfl rfl, weighs.bytes_eq, bound⟩

theorem Weighs.wp_enqueue
    (weighs : Weighs maxBytes directory spool) (payload : Payload) :
    Program.wp fileSystem
      (Charged maxBytes (spooledBytes directory + payload.length))
      (fun after => Limited maxBytes after ∧ spooledBytes after ≤
        spooledBytes directory + payload.length)
      (spool.enqueue payload) directory := by
  refine wp_enqueue_of (enqueuing_charged _ payload) ?_ ?_ ?_
  · intro _
    exact weighs.charged (Nat.le_add_right _ _) _ _
  · intro _
    exact weighs.charged (Nat.le_add_right _ _) _ _
  · intro _ _
    refine wp_mono (wp_evictWhile
      (evicting_lightens maxBytes (spooledBytes directory)) _ _
      ⟨weighs, le_refl _⟩) ?_ ?_
    · rintro evicted middle ⟨left, bound⟩
      exact ⟨left, Nat.add_le_add_right bound _⟩
    · rintro after ⟨limited, bound⟩
      exact ⟨limited, bound.trans (Nat.le_add_right _ _)⟩

/-- An `Enqueue` none of whose evictions fails stays within the budget. -/
theorem Weighs.run_enqueue (weighs : Weighs maxBytes directory spool)
    (bound : spooledBytes directory ≤ budget maxBytes)
    (small : budget maxBytes < 2 ^ 62) {payload : Payload}
    (length : payload.length < 2 ^ 63) {verdicts : List FsVerdict}
    (clean : ∀ verdict ∈ verdicts.take
      (spool.evictions (Spool.crowded payload) spool.order.length),
        ∀ kept, verdict ≠ .fail kept) :
    ((spool.enqueue payload).run fileSystem directory verdicts).Meets
      (Charged maxBytes (budget maxBytes))
      (fun after => Limited maxBytes after ∧
        spooledBytes after ≤ budget maxBytes) := by
  by_cases none : payload = []
  · rw [Spool.enqueue, if_pos none]
    exact weighs.charged bound _ _
  · by_cases exceeds : spool.maxBytes < Int64.ofNat payload.length
    · rw [Spool.enqueue, if_neg none, if_pos exceeds]
      exact weighs.charged bound _ _
    · have evicting :=
        evicting_lightens maxBytes (spooledBytes directory)
      have starts : Lightens maxBytes (spooledBytes directory) spool
          directory := ⟨weighs, le_refl _⟩
      rw [enqueue_eq none exceeds, run_bind]
      cases ran : (spool.makeRoom payload).run fileSystem directory
          verdicts with
      | killed after =>
        have cut := run_of_wp (wp_evictWhile evicting (Spool.crowded payload)
          spool.order.length starts) verdicts
        rw [← Spool.makeRoom, ran] at cut
        exact ⟨cut.1, cut.2.trans bound⟩
      | finished middle evicted unused =>
        obtain ⟨⟨left, less⟩, ends⟩ :=
          run_evictWhile_ends evicting (le_refl _) starts clean ran
        have roomy :
            spooledBytes middle + payload.length ≤ budget maxBytes := ?_
        · exact run_of_wp (wp_store_of (enqueuing_charged _ payload)
            ⟨left, roomy⟩) unused
        rw [weighs.maxBytes_eq] at exceeds
        have light := le_budget length exceeds
        rcases ends with empty | fits
        · have entries := left.length_order
          rw [empty] at entries
          rw [spooledBytes, List.eq_nil_of_length_eq_zero entries.symm]
          simpa using light
        · rw [Spool.crowded, decide_eq_false_iff_not, left.maxBytes_eq,
            left.bytes_eq, ← ofNat_add] at fits
          exact le_budget (by omega) fits

theorem Weighs.wp_release
    {name : String} (weighs : Weighs maxBytes directory spool) :
    Program.wp fileSystem
      (fun result after => Lightens maxBytes (spooledBytes directory)
        result.1 after)
      (fun after => after = directory) (spool.release name)
      directory := by
  refine Disk.wp_release weighs.stored weighs.lists rfl
    (fun _ => ⟨weighs, le_refl _⟩) ?_ fun _ => ⟨weighs, le_refl _⟩
  intro listed
  have left := weighs.forget listed
  obtain ⟨entry, queued, rfl⟩ := weighs.lists.mem_order.mp listed
  exact ⟨⟨left.toMeasures.of_eq rfl rfl rfl rfl, left.bytes_eq,
    left.fits⟩, (weighs.bytes_sub queued).2⟩

theorem wp_openSpool_lightens (limited : Limited maxBytes directory)
    (fits : spooledBytes directory < 2 ^ 63) :
    Program.wp fileSystem
      (fun result after => match result with
        | .error _ => Limited maxBytes after ∧
            spooledBytes after ≤ spooledBytes directory
        | .ok spool =>
          Lightens maxBytes (spooledBytes directory) spool after)
      (fun after => Limited maxBytes after ∧
        spooledBytes after ≤ spooledBytes directory)
      (openSpool maxBytes) directory := by
  refine wp_openSpool (observing_weighed maxBytes limited.stored)
    limited.stored
    (evicting_lightens maxBytes (spooledBytes directory)) ?_ ?_
  · intro after same
    exact ⟨limited.of_sameEntries same, same.spooledBytes_eq.le⟩
  · rintro index found after same ⟨recovered, weighed⟩ names
    have weighs : Weighs maxBytes directory (index.sorted found) :=
      ⟨weighed.measures recovered limited names,
        weighed.bytes_sorted limited.stored names, fits⟩
    exact ⟨weighs.of_sameEntries same, same.spooledBytes_eq.le⟩

end Weighing

/-! ## The caps -/

section Caps

variable {maxBytes : Int64} {station : Station} {spool : Spool}

/--
An `Enqueue` of a payload with a length, none of whose removals of an old
entry fails.
-/
def Station.EvictsCleanly (before : Station) : Deed → Prop
  | .enqueue payload verdicts =>
    payload.length < 2 ^ 63 ∧ ∀ spool, before.spool = some spool →
      ∀ verdict ∈ verdicts.take
        (spool.evictions (Spool.crowded payload) spool.order.length),
          ∀ kept, verdict ≠ .fail kept
  | _ => True

/-- Without failed evictions every state is within the budget. -/
theorem Station.lightens (small : budget maxBytes < 2 ^ 62)
    (reachable : (stationMachine maxBytes).ReachableUnder
      Station.EvictsCleanly station) :
    station.Holds
      (fun directory => Limited maxBytes directory ∧
        spooledBytes directory ≤ budget maxBytes)
      (fun directory spool =>
        Lightens maxBytes (budget maxBytes) spool directory) := by
  apply reachable.invariant
  · rintro station rfl
    exact holds_dead ⟨limited_empty maxBytes, Nat.zero_le _⟩ _
  · intro before deed after _ holds clean step
    obtain ⟨limited, bound⟩ := holds.directory
    refine holds.step (wp_mono
      (wp_openSpool_lightens limited (by omega)) ?_ ?_) ?_ ?_ ?_ step
    · intro result after opened
      cases result with
      | error fault => exact ⟨opened.1, opened.2.trans bound⟩
      | ok spool =>
        obtain ⟨weighs, less⟩ := opened
        exact ⟨⟨weighs.toLimited, less.trans bound⟩, weighs, less.trans bound⟩
    · intro after cut
      exact ⟨cut.1, cut.2.trans bound⟩
    · rintro payload verdicts rfl
      obtain ⟨spool, lives, rfl⟩ := map_eq_some_iff.mp step
      have ends := (holds.spool spool lives).1.run_enqueue bound small clean.1
        (clean.2 spool lives)
      cases ran : (spool.enqueue payload).run fileSystem before.directory
          verdicts with
      | killed leaves =>
        rw [ran] at ends
        exact holds_dead ends _
      | finished leaves value unused =>
        rw [ran] at ends
        have within := ends.within
        exact holds_alive ⟨ends.measures.toLimited, within⟩
          ⟨⟨ends.measures, ends.bytes_eq, by omega⟩, within⟩ _
    · rintro spool ⟨weighs, _⟩
      refine wp_mono weighs.wp_peek ?_ ?_
      · rintro ⟨result, answer⟩ after ⟨rfl, rfl⟩
        exact ⟨⟨limited, bound⟩, weighs, bound⟩
      · rintro after rfl
        exact ⟨limited, bound⟩
    · rintro name spool ⟨weighs, _⟩
      refine wp_mono weighs.wp_release ?_ ?_
      · rintro ⟨result, fault⟩ after ⟨left, less⟩
        exact ⟨⟨left.toLimited, less.trans bound⟩, left, less.trans bound⟩
      · rintro after rfl
        exact ⟨limited, bound⟩

/-- A directory can only be opened with a positive budget. -/
theorem Station.positive
    (reachable : (stationMachine maxBytes).Reachable station) :
    station.Holds (fun _ => True) (fun _ _ => 0 < maxBytes) := by
  apply reachable.invariant
  · rintro station rfl
    exact holds_dead trivial _
  · intro before deed after _ holds step
    refine holds.step ?_ ?_ ?_ ?_ step
    · rw [Disk.openSpool]
      split
      · trivial
      · rename_i positive
        apply wp_of_forall
        intro result after
        cases result with
        | error fault => trivial
        | ok spool => exact ⟨trivial, Int64.not_le.mp positive⟩
    · rintro payload verdicts rfl
      refine holds.operate (fun spool _ positive => ?_) step
      exact wp_of_forall fun _ _ => ⟨trivial, positive⟩
    · intro spool positive
      exact wp_of_forall fun _ _ => ⟨trivial, positive⟩
    · intro name spool positive
      exact wp_of_forall fun _ _ => ⟨trivial, positive⟩

/--
The number of entries never exceeds its limit, whatever fails.  The bytes
never exceed a budget below `2^62` in runs in which no removal of an eviction
fails; the counter is the number of bytes in the directory.
-/
theorem spool_within_caps
    (reachable : (stationMachine maxBytes).Reachable station)
    (alive : station.spool = some spool) :
    spool.order.length ≤ spool.maxEntries ∧ (budget maxBytes < 2 ^ 62 →
        (stationMachine maxBytes).ReachableUnder
          Station.EvictsCleanly station →
        spool.bytes ≤ spool.maxBytes ∧
          spool.bytes.toInt = spooledBytes station.directory) := by
  have measures := (Station.measured reachable).spool spool alive
  constructor
  · rw [measures.length_order, measures.maxEntries_eq]
    exact measures.few
  · intro small clean
    obtain ⟨weighs, bound⟩ := (Station.lightens small clean).spool spool alive
    have counted : spool.bytes.toInt =
        spooledBytes station.directory := by
      rw [weighs.bytes_eq, Int64.toInt_ofNat_of_lt weighs.fits]
    refine ⟨?_, counted⟩
    rw [Int64.le_iff_toInt_le, counted, weighs.maxBytes_eq]
    have positive := (Station.positive reachable).spool spool alive
    rw [Int64.lt_iff_toInt_lt, show (0 : Int64).toInt = 0 from rfl]
      at positive
    rw [budget] at bound
    omega

end Caps

/-- The removal of the oldest entry fails, and the payload is written. -/
def keptDeed : Deed :=
  .enqueue [8] (.fail 0 :: List.replicate 6 .proceed)

/-- A budget of one byte is exceeded after an eviction that failed. -/
theorem budget_exceeded : ∃ after spool, (stationMachine 1).Reachable after ∧
      after.spool = some spool ∧ spool.maxBytes = 1 ∧ spool.bytes = 2 ∧
      after.entries = some [⟨lapName 1, [7]⟩, ⟨lapName 2, [8]⟩] :=
  ⟨_, _, fullStation_reachable.next (show
      (stationMachine 1).step fullStation keptDeed = some _ from rfl),
    rfl, rfl, rfl, rfl⟩

/-- Whether no removal of an eviction fails. -/
def evictsCleanly (before : Station) : Deed → Bool
  | .enqueue payload verdicts =>
    payload.length < 2 ^ 63 ∧ ∀ spool ∈ before.spool,
      ∀ verdict ∈ verdicts.take
        (spool.evictions (Spool.crowded payload) spool.order.length),
          verdict = .proceed
  | _ => true

theorem evictsCleanly_permits (before : Station) (deed : Deed)
    (checked : evictsCleanly before deed = true) :
    before.EvictsCleanly deed := by
  cases deed with
  | enqueue payload verdicts =>
    rcases of_decide_eq_true checked with ⟨length, clean⟩
    refine ⟨length, fun spool lives verdict member kept => ?_⟩
    rw [clean spool lives verdict member]
    exact nofun
  | _ => trivial

/-- The second payload takes the place of the first; a write fails. -/
def evictingDeeds : List Deed :=
  fullDeeds ++ [.enqueue [8] (List.replicate 7 .proceed),
    .enqueue [9] [.proceed, .fail 0, .proceed, .proceed],
    .enqueue [10] (List.replicate 6 .proceed)]

def evictedStation : Station :=
  ((stationMachine 1).runIf evictsCleanly sampleStation evictingDeeds).get
    (by decide)

theorem spool_within_caps_evicted : ∃ spool,
      evictedStation.spool = some spool ∧ spool.dropped = 2 ∧
      evictedStation.entries = some [⟨entryName 3 4, [10]⟩] ∧
      spool.order.length ≤ spool.maxEntries ∧
      spool.bytes ≤ spool.maxBytes := by
  have clean : (stationMachine 1).ReachableUnder Station.EvictsCleanly
      evictedStation :=
    (Machine.ReachableUnder.start rfl).runIf evictsCleanly_permits
      (some_get _).symm
  have caps := @spool_within_caps 1 evictedStation _ clean.reachable rfl
  exact ⟨_, rfl, by decide, by decide, caps.1, (caps.2 (by decide) clean).1⟩

end Ironclaw.Disk
