import Ironclaw.Lib.Distinct
import Ironclaw.RedisStore.Fields
import Ironclaw.Store.History
import Mathlib.Data.List.Infix

/-!
# How long an identity is remembered

The identities applied to a device are trimmed by their scores whenever a new
one is applied, and their key as a whole expires a time to live after that.
Neither removes an identity that is younger than the time to live: a repeat
that arrives before is recognised, counts nothing and publishes nothing.

Ages are differences of the clock readings that the script is given, which
are whole seconds.
-/

namespace Ironclaw.RedisStore

open Lib Lib.Redis Domain Store List Server Backend AggregateWindow

variable {settings : Settings}

/-- An emission and the time at which it is applied. -/
abbrev Visit := Time × AggregateWindow

def Visit.identity (visit : Visit) : String := visit.2.identity

/-- The visits that applied an identity first. -/
def firsts (visits : List Visit) : List Visit :=
  firstBy Visit.identity ∅ visits

variable {visit : Visit} {visits : List Visit}

theorem firsts_concat_known
    (known : visit.identity ∈ keysOf Visit.identity visits) :
    firsts (visits ++ [visit]) = firsts visits := by
  rw [firsts, firstBy_concat, Finset.empty_union, if_pos known, firsts]

theorem firsts_concat_fresh
    (fresh : visit.identity ∉ keysOf Visit.identity visits) :
    firsts (visits ++ [visit]) = firsts visits ++ [visit] := by
  rw [firsts, firstBy_concat, Finset.empty_union, if_neg fresh, firsts]

/-- A reading of the clock with which the script computes exactly. -/
structure Settings.Reads (settings : Settings) (now : Time) : Prop where
  reading : now.unixSeconds.natAbs < 2 ^ 53
  cutoff : (now.unixSeconds - settings.ttl).natAbs < 2 ^ 53

theorem Settings.Reads.exact
    {now : Time} (reads : settings.Reads now) (window : AggregateWindow) :
    (argvOf settings now window).Exact := by
  refine ⟨reads.reading, ?_, reads.cutoff⟩
  have small := settings.ttl_le
  show (settings.ttl : Int).natAbs < 2 ^ 53
  omega

/-! ## What the sorted set holds -/

/--
The identities kept for a device with the time at which they all expire, at
a reading of the clock after its visits.
-/
structure Remembers
    (settings : Settings) (key : String) (clock : Time)
    (visits : List Visit) (content : Option (GoMap String Int × Int))
    (server : Server) : Prop where
  held : server.keys key =
    content.map fun kept => ⟨.scored kept.1, some kept.2⟩
  known : ∀ kept, content = some kept →
    ∀ identity score, kept.1.lookup identity = some score →
      identity ∈ keysOf Visit.identity visits
  young : ∀ visit ∈ firsts visits,
    clock.unixSeconds < visit.1.unixSeconds + settings.ttl →
      ∃ kept, content = some kept ∧
        kept.1.lookup visit.identity = some visit.1.unixSeconds ∧
          1000000000 * (visit.1.unixSeconds + settings.ttl) ≤ kept.2
  past : ∀ visit ∈ visits, visit.1.nanos ≤ clock.nanos

section Remembering

variable {key : String} {clock now : Time}
variable {server : Server}
variable {content : Option (GoMap String Int × Int)}

theorem remembers_nothing (absent : server.keys key = none) :
    Remembers settings key clock [] none server where
  held := absent
  known := by simp
  young := by simp [firsts, firstBy]
  past := by simp

section Remembers

variable (remembers : Remembers settings key clock visits content server)
include remembers

/-- What a script finds in the set at a later time. -/
theorem Remembers.scoredOf (order : clock.nanos ≤ now.nanos) :
    ∃ scores, server.scoredOf now.nanos key = some scores ∧
      (∀ identity score, scores.lookup identity = some score →
        identity ∈ keysOf Visit.identity visits) ∧ ∀ visit ∈ firsts visits,
        now.unixSeconds < visit.1.unixSeconds + settings.ttl →
          scores.lookup visit.identity = some visit.1.unixSeconds := by
  have seconds := Time.unixSeconds_mono order
  by_cases live : ∃ kept, content = some kept ∧ now.nanos < kept.2
  · rcases live with ⟨kept, equal, current⟩
    have found : server.live now.nanos key =
        some ⟨.scored kept.1, some kept.2⟩ := by
      rw [live, remembers.held, equal]
      simp [Held.expired, current]
    refine ⟨kept.1, scoredOf_of_live found, remembers.known kept equal, ?_⟩
    intro visit member young
    rcases remembers.young visit member (by omega) with
      ⟨other, same, score, _⟩
    cases equal.symm.trans same
    exact score
  · have gone : server.live now.nanos key = none := by
      rw [Server.live, remembers.held]
      cases equal : content with
      | none => rfl
      | some kept =>
        have expired : kept.2 ≤ now.nanos :=
          not_lt.mp fun current => live ⟨kept, equal, current⟩
        simp [Held.expired, expired]
    refine ⟨∅, by rw [Server.scoredOf, gone], ?_, ?_⟩
    · intro identity score found
      cases found
    · intro visit member young
      rcases remembers.young visit member (by omega) with
        ⟨kept, equal, _, deadline⟩
      have reading := (Time.unixSeconds_le now).2
      exact absurd ⟨kept, equal, by omega⟩ live

theorem Remembers.later {after : Server} (order : clock.nanos ≤ now.nanos)
    (same : after.keys key = server.keys key) :
    Remembers settings key now visits content after := by
  have seconds := Time.unixSeconds_mono order
  refine ⟨same.trans remembers.held, remembers.known, ?_, ?_⟩
  · intro visit member young
    exact remembers.young visit member (by omega)
  · intro visit member
    exact (remembers.past visit member).trans order

/-- A repeat leaves the set as it is. -/
theorem Remembers.repeated (order : clock.nanos ≤ visit.1.nanos)
    (known : visit.identity ∈ keysOf Visit.identity visits) :
    Remembers settings key visit.1 (visits ++ [visit]) content server := by
  have later := remembers.later order rfl
  refine ⟨later.held, ?_, ?_, ?_⟩
  · intro kept equal identity score found
    rw [keysOf_append]
    exact Finset.mem_union_left _ (later.known kept equal _ _ found)
  · rw [firsts_concat_known known]
    exact later.young
  · exact forall_mem_concat later.past le_rfl

/-- A new identity is added, and only those a time to live old go. -/
theorem Remembers.added {after : Server} {scores : GoMap String Int}
    (order : clock.nanos ≤ visit.1.nanos)
    (fresh : visit.identity ∉ keysOf Visit.identity visits)
    (known : ∀ identity score, scores.lookup identity = some score →
      identity ∈ keysOf Visit.identity visits)
    (young : ∀ other ∈ firsts visits,
      visit.1.unixSeconds < other.1.unixSeconds + settings.ttl →
        scores.lookup other.identity = some other.1.unixSeconds)
    (stored : after.keys key = remembered visit.identity
      visit.1.unixSeconds settings.ttl visit.1.nanos scores) :
    ∃ kept, Remembers settings key visit.1 (visits ++ [visit]) kept
      after := by
  have past : ∀ other ∈ visits ++ [visit], other.1.nanos ≤ visit.1.nanos := by
    exact forall_mem_concat
      (fun other old => (remembers.past other old).trans order) le_rfl
  have visited : ∀ other ∈ firsts (visits ++ [visit]),
      other ∈ visits ++ [visit] :=
    fun other member => (firstBy_sublist ∅ _).subset member
  rw [remembered] at stored
  by_cases never : (settings.ttl : Int) ≤ 0
  · rw [if_pos never] at stored
    refine ⟨none, stored, by simp, ?_, past⟩
    intro other member inside
    have seconds := Time.unixSeconds_mono (past other (visited other member))
    omega
  · rw [if_neg never] at stored
    refine ⟨some (_, _), stored, ?_, ?_, past⟩
    · rintro kept ⟨⟩ identity score found
      rw [keysOf_concat]
      by_cases same : identity = visit.identity
      · exact Finset.mem_insert.mpr (Or.inl same)
      · have old := (lookup_scoresAbove.mp found).1
        rw [AList.lookup_insert_ne same] at old
        exact Finset.mem_insert_of_mem (known identity score old)
    · intro other member inside
      have seconds :=
        Time.unixSeconds_mono (past other (visited other member))
      have reading := (Time.unixSeconds_le visit.1).1
      refine ⟨_, rfl, lookup_scoresAbove.mpr ⟨?_, by omega⟩, by omega⟩
      rw [firsts_concat_fresh fresh] at member
      rcases mem_append.mp member with old | new
      · have different : other.identity ≠ visit.identity := fun same =>
          fresh (mem_keysOf.mpr
            ⟨other, (firstBy_sublist ∅ _).subset old, same⟩)
        rw [AList.lookup_insert_ne different]
        exact young other old inside
      · rw [mem_singleton.mp new]
        exact AList.lookup_insert _

/-- A repeat within the time to live is found in the set. -/
theorem Remembers.recognised (order : clock.nanos ≤ visit.1.nanos)
    (known : visit.identity ∈ keysOf Visit.identity visits)
    (inside : ∀ other ∈ visits, visit.identity = other.identity →
      visit.1.unixSeconds < other.1.unixSeconds + settings.ttl) :
    ∃ scores score, server.scoredOf visit.1.nanos key = some scores ∧
      scores.lookup visit.identity = some score := by
  rcases mem_keysOf.mp known with ⟨earlier, member, same⟩
  rcases exists_mem_firstBy member
    (Finset.notMem_empty (Visit.identity earlier)) with
      ⟨first, firstMember, equal⟩
  have visited : first ∈ visits := (firstBy_sublist ∅ _).subset firstMember
  have names : visit.identity = first.identity := (equal.trans same).symm
  rcases remembers.scoredOf order with ⟨scores, found, _, young⟩
  refine ⟨scores, first.1.unixSeconds, found, ?_⟩
  rw [names]
  exact young first firstMember (inside first visited names)

end Remembers

end Remembering

/-! ## One call -/

/-- The arguments of the script for a visit. -/
def Visit.argv (settings : Settings) (visit : Visit) : Argv :=
  Backend.argvOf settings visit.1 visit.2

def Visit.stateKey (settings : Settings) (visit : Visit) : String :=
  RedisStore.stateKey settings visit.2.key.userID visit.2.key.deviceID

def Visit.dedupeKey (settings : Settings) (visit : Visit) : String :=
  RedisStore.dedupeKey settings visit.2.key.userID visit.2.key.deviceID

def Visit.devicesKey (settings : Settings) (visit : Visit) : String :=
  RedisStore.devicesKey settings visit.2.key.userID

/-- Everything that the first visit with an identity changes. -/
structure Applied
    (settings : Settings) (visit : Visit) (row : Row)
    (elements : Finset String) (scores : GoMap String Int)
    (before after : Server) : Prop where
  hash : ∃ fields,
    after.keys (visit.stateKey settings) = some ⟨.hash fields, none⟩ ∧
      Shows fields
        ((row.add (visit.argv settings)).rank (visit.argv settings))
  listed : after.keys (visit.devicesKey settings) =
    some ⟨.members (insert visit.2.key.deviceID elements), none⟩
  dedupe : after.keys (visit.dedupeKey settings) =
    remembered visit.identity visit.1.unixSeconds settings.ttl
      visit.1.nanos scores
  others : ∀ key, key ≠ visit.stateKey settings →
    key ≠ visit.devicesKey settings → key ≠ visit.dedupeKey settings →
      after.keys key = before.keys key
  published : after.published = before.published ++
    [(updatesChannel settings visit.2.key.userID visit.2.key.deviceID,
      numberText visit.2.windowID.toInt)]

section Calls

variable {clock : Time}
variable {backend : Backend}
variable {content : Option (GoMap String Int × Int)}

theorem applyWindow_known
    (remembers : Remembers settings (visit.dedupeKey settings) clock visits
      content backend.server)
    (order : clock.nanos ≤ visit.1.nanos)
    (known : visit.identity ∈ keysOf Visit.identity visits)
    (inside : ∀ other ∈ visits, visit.identity = other.identity →
      visit.1.unixSeconds < other.1.unixSeconds + settings.ttl) :
    (backend.applyWindow settings visit.1 visit.2).2 = none ∧
      (backend.applyWindow settings visit.1 visit.2).1.server =
        backend.server := by
  rcases remembers.recognised order known inside with
    ⟨scores, score, found, listed⟩
  exact applyWindow_of_run (run_applyWindowScript_known found listed)

theorem applyWindow_fresh {row : Row} {elements : Finset String}
    (remembers : Remembers settings (visit.dedupeKey settings) clock visits
      content backend.server)
    (order : clock.nanos ≤ visit.1.nanos) (reads : settings.Reads visit.1)
    (fresh : visit.identity ∉ keysOf Visit.identity visits)
    (hash : HashAt backend.server (visit.stateKey settings) row)
    (set : SetAt backend.server (visit.devicesKey settings) elements)
    (fits : row.Fits (visit.argv settings)) :
    (backend.applyWindow settings visit.1 visit.2).2 = none ∧ ∃ scores,
        Applied settings visit row elements scores backend.server
          (backend.applyWindow settings visit.1 visit.2).1.server ∧
        ∃ kept, Remembers settings (visit.dedupeKey settings) visit.1
          (visits ++ [visit]) kept
          (backend.applyWindow settings visit.1 visit.2).1.server := by
  rcases remembers.scoredOf order with ⟨scores, found, known, young⟩
  have absent : scores.lookup visit.identity = none := by
    rw [Option.eq_none_iff_forall_ne_some]
    intro score present
    exact fresh (known _ _ present)
  have apart := apart_scriptKeys settings visit.2.key.userID
    visit.2.key.deviceID
  rcases run_applyWindowScript_fresh apart (reads.exact visit.2) found absent
    hash set fits with ⟨fields, shown, ran⟩
  rcases applyWindow_of_run ran with ⟨succeeded, server⟩
  have applied : Applied settings visit row elements scores backend.server
      (backend.applyWindow settings visit.1 visit.2).1.server := by
    rw [server]
    refine ⟨⟨fields, keys_set_self _, shown⟩, ?_, ?_, ?_, rfl⟩
    · exact (keys_set_of_ne apart.state_devices.symm).trans (keys_set_self _)
    · exact (keys_set_of_ne apart.state_dedupe.symm).trans
        (keys_listing_dedupe apart)
    · intro key state devices dedupe
      exact (keys_set_of_ne state).trans (keys_listing_of_ne dedupe devices)
  exact ⟨succeeded, scores, applied,
    remembers.added order fresh known young applied.dedupe⟩

end Calls

/-! ## Whole histories of a device -/

/-- A new store after the visits, in their order. -/
def Backend.applyAll (settings : Settings) (visits : List Visit) : Backend :=
  visits.foldl
    (fun backend visit => (backend.applyWindow settings visit.1 visit.2).1)
    Backend.new

theorem Backend.applyAll_concat
    (settings : Settings) (visits : List Visit) (visit : Visit) :
    applyAll settings (visits ++ [visit]) =
      ((applyAll settings visits).applyWindow settings visit.1
        visit.2).1 := by
  rw [applyAll, foldl_append]
  rfl

/-- The sum of a counter over the distinct identities. -/
def total (counter : AggregateWindow → Int64) (visits : List Visit) : Int :=
  ((firsts visits).map fun visit => (counter visit.2).toInt).sum

theorem total_concat_fresh {counter : AggregateWindow → Int64}
    (fresh : visit.identity ∉ keysOf Visit.identity visits) :
    total counter (visits ++ [visit]) =
      total counter visits + (counter visit.2).toInt := by
  rw [total, firsts_concat_fresh fresh, map_append, sum_append,
    map_singleton, sum_singleton, total]

/-- Clock readings never decrease, and repeats arrive in time. -/
structure InTime (settings : Settings) (visits : List Visit) : Prop where
  ordered : visits.Pairwise fun earlier later =>
    earlier.1.nanos ≤ later.1.nanos
  inside : visits.Pairwise fun earlier later =>
    later.identity = earlier.identity →
      later.1.unixSeconds < earlier.1.unixSeconds + (settings.ttl : Int)

/-- The integers that a script must hold. -/
structure Bounded (settings : Settings) (visits : List Visit) : Prop where
  reads : ∀ visit ∈ visits, settings.Reads visit.1
  sums : ∀ earlier, earlier <+: visits →
    inRange (total count earlier) = true ∧
      inRange (total errorCount earlier) = true ∧
        inRange (total bytes earlier) = true

theorem InTime.of_concat (timely : InTime settings (visits ++ [visit])) :
    InTime settings visits ∧
      ∀ earlier ∈ visits, earlier.1.nanos ≤ visit.1.nanos ∧
        (visit.identity = earlier.identity → visit.1.unixSeconds <
            earlier.1.unixSeconds + settings.ttl) := by
  rcases pairwise_append.mp timely.ordered with ⟨ordered, _, order⟩
  rcases pairwise_append.mp timely.inside with ⟨inside, _, close⟩
  refine ⟨⟨ordered, inside⟩, ?_⟩
  intro earlier member
  exact ⟨order earlier member visit mem_cons_self,
    close earlier member visit mem_cons_self⟩

theorem Bounded.of_concat (bounded : Bounded settings (visits ++ [visit])) :
    Bounded settings visits where
  reads other member := bounded.reads other (mem_append_left _ member)
  sums earlier begins :=
    bounded.sums earlier (begins.trans (prefix_append _ _))

/-- What the server holds for a device after its visits. -/
structure Tracks
    (settings : Settings) (userID deviceID : String) (clock : Time)
    (visits : List Visit) (server : Server) : Prop where
  remembers : ∃ content,
    Remembers settings (dedupeKey settings userID deviceID) clock visits
      content server
  hash : ∃ row, HashAt server (stateKey settings userID deviceID) row ∧
    row.count.getD 0 = total count visits ∧
    row.errorCount.getD 0 = total errorCount visits ∧
    row.bytes.getD 0 = total bytes visits
  listed : ∃ elements, SetAt server (devicesKey settings userID) elements
  published : server.published = (firsts visits).map fun visit =>
    (updatesChannel settings userID deviceID,
      numberText visit.2.windowID.toInt)

theorem Row.counters_rank (argv : Argv) (row : Row) :
    (row.rank argv).count = row.count ∧
      (row.rank argv).errorCount = row.errorCount ∧
        (row.rank argv).bytes = row.bytes := by
  rw [Row.rank]
  split
  · rw [Row.see]
    split <;> exact ⟨rfl, rfl, rfl⟩
  · split
    · rw [Row.see]
      split
      · split <;> exact ⟨rfl, rfl, rfl⟩
      · split <;> exact ⟨rfl, rfl, rfl⟩
    · exact ⟨rfl, rfl, rfl⟩

theorem tracks_new
    (settings : Settings) (userID deviceID : String) (clock : Time) :
    Tracks settings userID deviceID clock [] new.server where
  remembers := ⟨none, remembers_nothing rfl⟩
  hash := ⟨Row.empty, Or.inl ⟨rfl, rfl⟩, rfl, rfl, rfl⟩
  listed := ⟨∅, Or.inl ⟨rfl, rfl⟩⟩
  published := rfl

section Visits

variable {backend : Backend}

theorem Tracks.known
    (tracks : Tracks settings visit.2.key.userID visit.2.key.deviceID
      visit.1 visits backend.server)
    (known : visit.identity ∈ keysOf Visit.identity visits)
    (inside : ∀ other ∈ visits, visit.identity = other.identity →
      visit.1.unixSeconds < other.1.unixSeconds + settings.ttl) :
    (backend.applyWindow settings visit.1 visit.2).2 = none ∧
      Tracks settings visit.2.key.userID visit.2.key.deviceID visit.1
        (visits ++ [visit])
        (backend.applyWindow settings visit.1 visit.2).1.server := by
  rcases tracks.remembers with ⟨content, remembers⟩
  rcases applyWindow_known remembers (Int.le_refl _) known inside with
    ⟨succeeded, server⟩
  rw [server]
  refine ⟨succeeded, ⟨content, remembers.repeated (Int.le_refl _) known⟩, ?_,
    tracks.listed, ?_⟩
  · simp only [total, firsts_concat_known known]
    exact tracks.hash
  · rw [firsts_concat_known known]
    exact tracks.published

theorem Tracks.fresh
    (tracks : Tracks settings visit.2.key.userID visit.2.key.deviceID
      visit.1 visits backend.server)
    (reads : settings.Reads visit.1)
    (fresh : visit.identity ∉ keysOf Visit.identity visits)
    (sums : inRange (total count (visits ++ [visit])) = true ∧
        inRange (total errorCount (visits ++ [visit])) =
          true ∧
        inRange (total bytes (visits ++ [visit])) = true) :
    (backend.applyWindow settings visit.1 visit.2).2 = none ∧
      Tracks settings visit.2.key.userID visit.2.key.deviceID visit.1
        (visits ++ [visit])
        (backend.applyWindow settings visit.1 visit.2).1.server := by
  rcases tracks.remembers with ⟨content, remembers⟩
  rcases tracks.hash with ⟨row, hash, count, errorCount, bytes⟩
  rcases tracks.listed with ⟨elements, set⟩
  simp only [total_concat_fresh fresh] at sums
  rw [← count, ← errorCount, ← bytes] at sums
  have fits : row.Fits (visit.argv settings) := ⟨sums.1, sums.2.1, sums.2.2⟩
  rcases applyWindow_fresh remembers (Int.le_refl _) reads fresh hash set
    fits with ⟨succeeded, scores, applied, kept⟩
  refine ⟨succeeded, kept, ?_, ⟨_, Or.inr applied.listed⟩, ?_⟩
  · rcases applied.hash with ⟨fields, found, shown⟩
    rcases Row.counters_rank (visit.argv settings)
      (row.add (visit.argv settings)) with ⟨countRank, errorRank, bytesRank⟩
    refine ⟨_, Or.inr ⟨fields, found, shown, ?_⟩, ?_, ?_, ?_⟩
    · rw [countRank]
      rfl
    · rw [countRank, total_concat_fresh fresh, ← count]
      rfl
    · rw [errorRank, total_concat_fresh fresh, ← errorCount]
      rfl
    · rw [bytesRank, total_concat_fresh fresh, ← bytes]
      rfl
  · rw [applied.published, tracks.published, firsts_concat_fresh fresh,
      map_append]
    rfl

end Visits

/-- Every visit of a history succeeds, and the server tracks them all. -/
theorem tracks_applyAll {userID deviceID : String}
    (mine : ∀ visit ∈ visits,
      visit.2.key.userID = userID ∧ visit.2.key.deviceID = deviceID)
    (timely : InTime settings visits) (bounded : Bounded settings visits) :
    ∀ clock : Time, (∀ visit ∈ visits, visit.1.nanos ≤ clock.nanos) →
      Tracks settings userID deviceID clock visits
        (applyAll settings visits).server := by
  induction visits using List.reverseRecOn with
  | nil => exact fun clock _ => tracks_new settings userID deviceID clock
  | append_singleton visits visit induction =>
    intro clock past
    rcases mine visit (by simp) with ⟨rfl, rfl⟩
    rcases timely.of_concat with ⟨before, near⟩
    have tracks := induction
      (fun other member => mine other (mem_append_left _ member))
      before bounded.of_concat visit.1
      (fun other member => (near other member).1)
    have after : Tracks settings visit.2.key.userID visit.2.key.deviceID
        visit.1 (visits ++ [visit])
        (applyAll settings (visits ++ [visit])).server := by
      rw [applyAll_concat]
      by_cases known : visit.identity ∈ keysOf Visit.identity visits
      · exact (tracks.known known fun other member => (near other member).2).2
      · exact (tracks.fresh (bounded.reads visit (by simp)) known
          (bounded.sums _ (prefix_refl _))).2
    rcases after.remembers with ⟨content, remembers⟩
    exact { after with
      remembers := ⟨content, remembers.later (past visit (by simp)) rfl⟩ }

/-- Every history is over at some time. -/
theorem exists_later {Item : Type} (items : List (Time × Item)) :
    ∃ clock : Time, ∀ item ∈ items, item.1.nanos ≤ clock.nanos := by
  induction items with
  | nil => exact ⟨Time.zero, by simp⟩
  | cons item rest induction =>
    rcases induction with ⟨clock, later⟩
    refine ⟨⟨max item.1.nanos clock.nanos⟩, ?_⟩
    intro other member
    rcases mem_cons.mp member with rfl | old
    · exact le_max_left _ _
    · exact (later other old).trans (le_max_right _ _)

/-- A counter of a device as `HINCRBY` reads it; an absent one is 0. -/
def counterOf (server : Server) (now : Int) (key field : String) :
    Option Int :=
  (server.hashOf now key).bind fun fields =>
    readInt ((fields.lookup field).getD "0")

theorem HashAt.counters {server : Server} {key : String} {row : Row}
    (stored : HashAt server key row) (now : Int) :
    counterOf server now key "count" = some (row.count.getD 0) ∧
      counterOf server now key "error_count" = some (row.errorCount.getD 0) ∧
      counterOf server now key "bytes" = some (row.bytes.getD 0) := by
  have zero : readInt "0" = some 0 := by decide
  rcases stored.hashOf now with ⟨fields, shown, found, _⟩
  simp only [counterOf, found, Option.bind_some]
  exact ⟨readInt_getD shown.count zero, readInt_getD shown.errorCount zero,
    readInt_getD shown.bytes zero⟩

/--
Repeats that arrive before their identity is a time to live old count nothing
and publish nothing, and no identity is forgotten before.
-/
theorem dedupe_holds_for_ttl
    (settings : Settings) (userID deviceID : String) (visits : List Visit)
    (mine : ∀ visit ∈ visits,
      visit.2.key.userID = userID ∧ visit.2.key.deviceID = deviceID)
    (timely : InTime settings visits)
    (bounded : Bounded settings visits) :
    let server := (Backend.applyAll settings visits).server
    (∀ now, counterOf server now (stateKey settings userID deviceID) "count" =
          some (total count visits) ∧
        counterOf server now (stateKey settings userID deviceID)
            "error_count" =
          some (total errorCount visits) ∧
        counterOf server now (stateKey settings userID deviceID) "bytes" =
          some (total bytes visits)) ∧
      (server.published = (firsts visits).map fun visit =>
        (updatesChannel settings userID deviceID,
          numberText visit.2.windowID.toInt)) ∧
      ∀ now : Time, (∀ visit ∈ visits, visit.1.nanos ≤ now.nanos) →
        ∀ visit ∈ firsts visits,
          now.unixSeconds < visit.1.unixSeconds + settings.ttl → ∃ scores,
              server.scoredOf now.nanos
                  (dedupeKey settings userID deviceID) = some scores ∧
                scores.lookup visit.identity =
                  some visit.1.unixSeconds := by
  have tracks := tracks_applyAll mine timely bounded
  rcases exists_later visits with ⟨clock, later⟩
  have last := tracks clock later
  refine ⟨?_, last.published, ?_⟩
  · intro now
    rcases last.hash with ⟨row, hash, count, errorCount, bytes⟩
    rw [← count, ← errorCount, ← bytes]
    exact hash.counters now
  · intro now past visit member young
    rcases (tracks now past).remembers with ⟨content, remembers⟩
    rcases remembers.scoredOf (Int.le_refl _) with ⟨scores, found, _, kept⟩
    exact ⟨scores, found, kept visit member young⟩

/-- The defaults of a store. -/
def exampleSettings : Settings := ⟨"ironclaw", 21600, by decide⟩

/-- An emission, another one, and a repeat of the first. -/
def exampleVisits : List Visit :=
  [(⟨1700000000000000000⟩, exampleWindow "device-1"),
    (⟨1700000001000000000⟩, { exampleWindow "device-1" with sequence := 43 }),
    (⟨1700021599000000000⟩, exampleWindow "device-1")]

theorem dedupe_holds_for_ttl_example :
    counterOf (Backend.applyAll exampleSettings exampleVisits).server 0
        (stateKey exampleSettings "user-1" "device-1") "count" = some 2 ∧
      (Backend.applyAll exampleSettings
        exampleVisits).server.published.length = 2 := by
  have timely : InTime exampleSettings exampleVisits := ⟨by decide, by decide⟩
  have sums : ∀ earlier ∈ exampleVisits.inits,
      inRange (total count earlier) = true ∧
        inRange (total errorCount earlier) = true ∧
          inRange (total bytes earlier) = true := by
    decide
  have reads : ∀ visit ∈ exampleVisits, exampleSettings.Reads visit.1 := by
    intro visit member
    have times : ∀ visit ∈ exampleVisits,
        visit.1.unixSeconds.natAbs < 2 ^ 53 ∧
          (visit.1.unixSeconds - exampleSettings.ttl).natAbs < 2 ^ 53 := by
      decide
    exact ⟨(times visit member).1, (times visit member).2⟩
  rcases dedupe_holds_for_ttl exampleSettings "user-1" "device-1"
    exampleVisits (by decide) timely
    ⟨reads, fun earlier begins =>
      sums earlier ((mem_inits _ _).mpr begins)⟩ with ⟨counters, published, _⟩
  constructor
  · rw [(counters 0).1]
    decide
  · rw [published]
    decide

/-- Two emissions whose counts together have more than 64 bits. -/
def hugeVisits : List Visit :=
  [(⟨1700000000000000000⟩,
      { exampleWindow "device-1" with count := 9223372036854775807 }),
    (⟨1700000001000000000⟩, { exampleWindow "device-1" with sequence := 43 })]

/--
An increment that would overflow ends the script after the identity was
remembered: the emission is neither counted nor accepted again.
-/
theorem overflow_loses_emission : InTime exampleSettings hugeVisits ∧
      (∀ visit ∈ hugeVisits, visit.2.key.userID = "user-1" ∧
        visit.2.key.deviceID = "device-1") ∧
      counterOf (Backend.applyAll exampleSettings hugeVisits).server 0
          (stateKey exampleSettings "user-1" "device-1") "count" ≠
        some (total count hugeVisits) := by
  refine ⟨⟨by decide, by decide⟩, by decide, ?_⟩
  decide

/-- A repeat two seconds after its emission, at readings above `2^53`. -/
def lateVisits : List Visit :=
  [(⟨9007199254740993000000000⟩, exampleWindow "device-1"),
    (⟨9007199254740995000000000⟩,
      { exampleWindow "device-1" with sequence := 43 }),
    (⟨9007199254740995000000000⟩, exampleWindow "device-1")]

/--
A double rounds the first of these readings down and the others up, so the
identity is trimmed two seconds early, and its repeat is counted.
-/
theorem rounded_readings_repeat_emission :
    InTime ⟨"ironclaw", 4, by decide⟩ lateVisits ∧
      counterOf (applyAll ⟨"ironclaw", 4, by decide⟩ lateVisits).server 0
          (stateKey exampleSettings "user-1" "device-1") "count" = some 3 ∧
        total count lateVisits = 2 := by
  refine ⟨⟨by decide, by decide⟩, ?_, ?_⟩
  · decide
  · decide

end Ironclaw.RedisStore
