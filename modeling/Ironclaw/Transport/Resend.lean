import Ironclaw.Disk.Measure
import Ironclaw.Transport.Custody

/-!
# What `Drain` posts again

`Drain` posts the oldest entry, and once the edge has answered it releases
that entry.  A `Release` that fails is counted and nothing else: the entry is
still the oldest, so the next turn of the loop posts it again, at once.  An
entry whose `Release` did not fail is never posted again.

The machine keeps beside the agent the entries that the edge has answered for
good, and those whose `Release` failed.  An entry is told from a later one of
the same name by the call that spooled it, so nothing is assumed about the
sequence numbers.
-/

namespace Ironclaw.Disk

open Lib

variable {verdicts : List FsVerdict}

/-! ## An index and its directory -/

/-- The index lists the directory, and its limit on entries is set. -/
structure Follows
    (maxBytes : Int64) (directory : Directory) (spool : Spool) :
    Prop where
  stored : Stored directory
  lists : Lists directory spool
  maxEntries_eq : spool.maxEntries = entryLimit maxBytes

section Following

variable {maxBytes : Int64} {directory after : Directory} {spool : Spool}

section Follows

variable (follows : Follows maxBytes directory spool)
include follows

theorem Follows.of_eq {other : Spool} (order : other.order = spool.order)
    (sizes : other.sizes = spool.sizes)
    (limit : other.maxEntries = spool.maxEntries) :
    Follows maxBytes directory other where
  stored := follows.stored
  lists := follows.lists.of_eq order sizes
  maxEntries_eq := limit.trans follows.maxEntries_eq

theorem Follows.of_sameEntries (same : SameEntries directory after) :
    Follows maxBytes after spool where
  stored := follows.stored.of_sameEntries same
  lists := follows.lists.of_sameEntries same
  maxEntries_eq := follows.maxEntries_eq

theorem Follows.forget {name : String} (listed : name ∈ spool.order) :
    Follows maxBytes (directory.without name) (spool.forget name) where
  stored := follows.stored.without name
  lists := follows.lists.forget follows.stored listed
  maxEntries_eq := by
    simpa using follows.maxEntries_eq

/-- Below the limit on entries a name can be drawn. -/
theorem Follows.exists_draws (room : spool.order.length < spool.maxEntries) :
    ∃ sequence, spool.Draws sequence := by
  apply Disk.exists_draws
  have orderNodup : spool.order.Nodup :=
    follows.lists.order_perm.nodup_iff.mpr follows.stored.names_nodup
  have keys : spool.sizes.keys.Perm spool.order := by
    rw [List.perm_ext_iff_of_nodup spool.sizes.keys_nodup orderNodup]
    intro name
    rw [← AList.mem_keys]
    exact follows.lists.sizes_iff name
  have size : spool.sizes.keys.length = GoMap.size spool.sizes :=
    List.length_map _
  have bound := entryLimit_lt maxBytes
  rw [keys.length_eq] at size
  rw [follows.maxEntries_eq] at room
  omega

end Follows

theorem evicting_follows (maxBytes : Int64) :
    Evicting (fun spool directory => Follows maxBytes directory spool)
      (fun _ => True) where
  stored follows := follows.stored
  lists follows := follows.lists
  crashes _ := trivial
  removes first follows :=
    (follows.forget (by simp [first])).of_eq rfl rfl rfl
  fails follows := follows.of_eq rfl rfl rfl

theorem enqueuing_follows (maxBytes : Int64) (payload : Payload) :
    Enqueuing payload
      (fun spool directory => Follows maxBytes directory spool)
      (fun result after => Follows maxBytes after result.1)
      (fun _ => True) where
  stored follows := follows.stored
  lists follows := follows.lists
  full follows _ := follows.of_eq rfl rfl rfl
  draws follows room := follows.exists_draws room
  fails follows _ _ same _ := (follows.of_sameEntries same).of_eq rfl rfl rfl
  publishes := by
    intro spool directory after fault sequence follows _ _ stored published _
    have numbered : Lists directory { spool with seq := sequence } :=
      follows.lists.of_eq rfl rfl
    exact ⟨stored, numbered.append published _, follows.maxEntries_eq⟩
  dies _ _ _ _ := trivial

theorem Follows.wp_enqueue
    (follows : Follows maxBytes directory spool) (payload : Payload) :
    Program.wp fileSystem
      (fun result after => Follows maxBytes after result.1)
      (fun _ => True) (spool.enqueue payload) directory := by
  refine wp_enqueue_of (enqueuing_follows maxBytes payload) ?_ ?_ ?_
  · intro _
    exact follows
  · intro _
    exact follows.of_eq rfl rfl rfl
  · intro _ _
    exact wp_evictWhile (evicting_follows maxBytes) _ _ follows

/-- A `Release` without an error leaves no entry of that name. -/
theorem Follows.wp_release
    (follows : Follows maxBytes directory spool) (name : String) :
    Program.wp fileSystem
      (fun result after => Follows maxBytes after result.1 ∧
        (∀ entry ∈ queueOf after.journal, entry ∈ queueOf directory.journal) ∧
        (result.2 = none →
          ∀ entry ∈ queueOf after.journal, entry.name ≠ name))
      (fun _ => True) (spool.release name) directory := by
  refine Disk.wp_release follows.stored follows.lists trivial ?_ ?_ ?_
  · intro unlisted
    refine ⟨follows, fun _ member => member, ?_⟩
    intro _ entry member same
    apply unlisted
    exact follows.lists.mem_order.mpr ⟨entry, member, same⟩
  · intro listed
    refine ⟨(follows.forget listed).of_eq rfl rfl rfl, ?_, ?_⟩
    · intro entry member
      rw [Directory.without, queueOf_removed] at member
      exact List.mem_of_mem_filter member
    · intro _ entry member
      rw [Directory.without, queueOf_removed] at member
      exact of_decide_eq_true (List.mem_filter.mp member).2
  · intro fault
    refine ⟨follows, fun _ member => member, ?_⟩
    intro released
    cases released

theorem follows_of_open {unused : List FsVerdict} (stored : Stored directory)
    (ran : (openSpool maxBytes).run fileSystem directory verdicts =
      .finished after (.ok spool) unused) :
    Follows maxBytes after spool := by
  have opened := Program.finished_of_wp
    (wp_openSpool (observing_weighed maxBytes stored) stored
      (evicting_follows maxBytes) (fun _ _ => trivial) ?_) ran
  · exact opened
  · rintro index found middle same ⟨recovered, weighed⟩ names
    have listed := recovered.lists stored names
    exact Follows.of_sameEntries ⟨stored, listed, weighed.maxEntries_eq⟩ same

end Following

end Ironclaw.Disk

namespace Ironclaw.Transport

open Lib Domain Disk

/-! ## The monitored agent -/

/-- An agent, and what became of the entries that `Drain` posted. -/
structure Delivery where
  agent : Agent
  /-- The entries that the edge accepted, or refused for good. -/
  answered : List Held
  /-- The entries whose `Release` failed. -/
  unreleased : List Held

/-- The entry that a move settles: the edge accepts or refuses it. -/
def Agent.answeredBy (agent : Agent) : Move → List Held
  | .answerDrain reply =>
    match agent.drain, HTTPS.judge (post reply) with
    | .posting held, .drained => [held]
    | .posting held, .refused => [held]
    | _, _ => []
  | _ => []

/-- The entry whose `Release` has failed, after a move. -/
def Agent.unreleasedBy (after : Agent) : Move → List Held
  | .release _ =>
    match after.drain with
    | .counting held _ (some _) => [held]
    | _ => []
  | _ => []

def Delivery.step (delivery : Delivery) (move : Move) : Option Delivery :=
  (delivery.agent.step move).map fun after =>
    { agent := after
      answered := delivery.answered ++ delivery.agent.answeredBy move
      unreleased := delivery.unreleased ++ after.unreleasedBy move }

def deliveryMachine (maxBytes : Int64) (recorded : Bool) :
    Machine Delivery Move where
  initial delivery := delivery.agent.Opened maxBytes recorded ∧
    delivery.answered = [] ∧ delivery.unreleased = []
  step := Delivery.step

/-! ## Calls that have enqueued -/

/-- A call that does not wait for its post or its `Enqueue` any more. -/
def Past (calls : List SendCall) (id : Nat) : Prop :=
  ∃ call, calls[id]? = some call ∧ call.phase.result ≠ none

variable {id : Nat}

theorem Past.advance
    {calls : List SendCall} {other : Nat} {payload : Payload} {old : Phase}
    (past : Past calls other) (found : calls[id]? = some ⟨payload, old⟩)
    (phase : Phase) (kept : old.result ≠ none → phase.result ≠ none) :
    Past (calls.set id ⟨payload, phase⟩) other := by
  exact Slots.exists_set found kept past

/-! ## What a move of a call leaves alone -/

/-- The spool, the owners and `Drain` are as before. -/
structure Apart (agent after : Agent) : Prop where
  directory : after.directory = agent.directory
  queue : after.https.queue = agent.https.queue
  owners : after.owners = agent.owners
  drain : after.drain = agent.drain
  past : ∀ id, Past agent.calls id → Past after.calls id

section Moves

variable {agent after : Agent}

theorem apart_send (encoded : Except Fault Payload) (agent : Agent) :
    Apart agent (agent.send encoded) where
  directory := rfl
  queue := rfl
  owners := rfl
  drain := rfl
  past := by
    rintro id ⟨call, present, answered⟩
    exact ⟨call, Slots.concat_iff.mpr (Or.inl present), answered⟩

theorem settle_queue (posted : Option Fault) (https : HTTPS) :
    (https.settle posted).1.queue = https.queue := by
  cases posted with
  | none => rfl
  | some fault =>
    rw [HTTPS.settle]
    split
    · rfl
    · split <;> rfl

end Moves

/-! ## The invariant -/

/-- No spooled entry is the one that was held. -/
def Agent.Gone (agent : Agent) (held : Held) : Prop :=
  ∀ entry ∈ queueOf agent.directory.journal,
    entry.name = held.entry.name → agent.owner entry ≠ held.owner

/-- The invariant of a delivery. -/
structure Delivery.Settled (maxBytes : Int64) (delivery : Delivery) :
    Prop where
  follows : ∃ spool, delivery.agent.https.queue = some spool ∧
    Follows maxBytes delivery.agent.directory spool
  owners : ∀ name id, delivery.agent.owners.lookup name = some id →
    Past delivery.agent.calls id
  owned : ∀ held,
    held ∈ delivery.answered ∨ delivery.agent.drain.held = some held →
      ∀ id, held.owner = some id → Past delivery.agent.calls id
  gone : ∀ held ∈ delivery.answered, held ∉ delivery.unreleased →
    (∃ turn, delivery.agent.drain = .releasing held turn) ∨
      delivery.agent.Gone held
  fresh : ∀ held, delivery.agent.drain = .posting held →
    held ∈ delivery.answered → held ∈ delivery.unreleased

namespace Delivery

section Steps

variable {maxBytes : Int64} {delivery : Delivery} {after : Agent}
variable {verdicts : List FsVerdict}

theorem Settled.apart (settled : delivery.Settled maxBytes)
    (apart : Apart delivery.agent after) :
    { delivery with agent := after }.Settled maxBytes where
  follows := by
    obtain ⟨spool, configured, follows⟩ := settled.follows
    refine ⟨spool, apart.queue.trans configured, ?_⟩
    change Follows maxBytes after.directory spool
    rwa [apart.directory]
  owners name id known := by
    change after.owners.lookup name = some id at known
    rw [apart.owners] at known
    exact apart.past id (settled.owners name id known)
  owned held involved id owner := by
    change _ ∨ after.drain.held = some held at involved
    rw [apart.drain] at involved
    exact apart.past id (settled.owned held involved id owner)
  gone := by
    intro held member released
    have known := settled.gone held member released
    simp only [Agent.Gone, Agent.owner] at known ⊢
    rwa [apart.directory, apart.drain, apart.owners]
  fresh held posting member := by
    change after.drain = _ at posting
    rw [apart.drain] at posting
    exact settled.fresh held posting member

/-! ### Enqueue -/

/-- An entry that stays keeps its owner; one that is new gets the call's. -/
theorem owner_after_enqueue
    {agent : Agent} {directory : Directory} {entry : Entry} (id : Nat)
    (stored : Stored directory) (queued : entry ∈ queueOf directory.journal) :
    (Agent.claim id (missing directory agent.directory)
        agent.owners).lookup entry.name = some id ∨
      entry ∈ queueOf agent.directory.journal ∧
        (Agent.claim id (missing directory agent.directory)
          agent.owners).lookup entry.name = agent.owner entry := by
  by_cases before : entry ∈ queueOf agent.directory.journal
  · refine Or.inr ⟨before, ?_⟩
    rw [Agent.lookup_claim, if_neg]
    · rfl
    intro claimed
    obtain ⟨other, gained, same⟩ := List.mem_map.mp claimed
    obtain ⟨otherQueued, absent⟩ := mem_missing.mp gained
    rw [stored.entry_eq otherQueued queued same] at absent
    exact absent before
  · exact Or.inl (Agent.lookup_claim_new id agent.owners queued before)

section Settled

variable (settled : delivery.Settled maxBytes)
include settled

theorem Settled.enqueue
    (step : delivery.agent.enqueue id verdicts = some after) :
    { delivery with agent := after }.Settled maxBytes := by
  obtain ⟨spool, configured, follows⟩ := settled.follows
  rw [Agent.enqueue, configured] at step
  split at step
  · rename_i payload current found same
    cases same
    split at step
    · rename_i directory result fault unused ran
      have kept := Program.finished_of_wp (follows.wp_enqueue payload) ran
      cases step
      have waiting : ¬Past delivery.agent.calls id := by
        rintro ⟨call, present, answered⟩
        rw [found] at present
        cases present
        exact answered rfl
      have past : ∀ other, Past delivery.agent.calls other →
          Past (delivery.agent.calls.set id
            ⟨payload, .reading fault⟩) other :=
        fun _ known => known.advance found _ fun _ => Option.some_ne_none _
      refine ⟨⟨result, rfl, kept⟩, ?_, ?_, ?_, settled.fresh⟩
      · intro name other known
        change (Agent.claim _ _ _).lookup name = _ at known
        rw [Agent.lookup_claim] at known
        split at known
        · cases known
          refine ⟨⟨payload, .reading fault⟩, ?_, Option.some_ne_none _⟩
          exact (Slots.getElem?_set _ found id).trans (if_pos rfl)
        · exact past other (settled.owners name other known)
      · intro held involved other owner
        exact past other (settled.owned held involved other owner)
      · intro held member released
        rcases settled.gone held member released with releasing | gone
        · exact Or.inl releasing
        refine Or.inr ?_
        intro entry queued same owner
        rcases owner_after_enqueue id kept.stored queued with
          mine | ⟨before, unchanged⟩
        · -- The call that enqueues has not held an entry before.
          apply waiting
          apply settled.owned held (Or.inl member)
          exact owner.symm.trans mine
        · exact gone entry before same (unchanged.symm.trans owner)
    · cases step
  · cases step

/-! ### Drain -/

theorem Settled.gone_of_not_releasing
    (elsewhere : ∀ held turn, delivery.agent.drain ≠ .releasing held turn) :
    ∀ held ∈ delivery.answered, held ∉ delivery.unreleased →
      delivery.agent.Gone held := by
  intro held member released
  refine (settled.gone held member released).resolve_left ?_
  rintro ⟨turn, releasing⟩
  exact elsewhere held turn releasing

theorem Settled.peek (step : delivery.agent.peek verdicts = some after) :
    { delivery with agent := after }.Settled maxBytes := by
  obtain ⟨spool, configured, follows⟩ := settled.follows
  rw [Agent.peek, configured] at step
  split at step
  · rename_i current idle same
    cases same
    split at step
    · rename_i directory result peeked unused ran
      obtain ⟨rfl, rfl, found⟩ := Program.finished_of_wp
        (wp_peek follows.stored follows.lists) ran
      cases step
      have elsewhere : ∀ held turn,
          delivery.agent.drain ≠ .releasing held turn := by
        rw [idle]
        rintro held turn ⟨⟩
      have gone := settled.gone_of_not_releasing elsewhere
      refine ⟨⟨_, rfl, follows⟩, settled.owners, ?_,
        fun held member released =>
          Or.inr (gone held member released), ?_⟩
      · rintro held (member | holds) id owner
        · exact settled.owned held (Or.inl member) id owner
        · cases peeked with
          | error fault => cases holds
          | ok oldest =>
            cases holds
            exact settled.owners _ id owner
      · intro held posting member
        by_contra released
        cases peeked with
        | error fault => cases posting
        | ok oldest =>
          cases posting
          exact gone _ member released _
            (found oldest.1 oldest.2 rfl).2 rfl rfl
    · cases step
  · cases step

/-- The edge has answered the entry that `Drain` posted. -/
theorem Settled.settle
    {held : Held} (posting : delivery.agent.drain = .posting held)
    (turn : HTTPS.Turn) (acknowledged : List (Option Nat)) :
    Settled maxBytes
      { agent := { delivery.agent with
          drain := .releasing held turn
          acknowledged := acknowledged }
        answered := delivery.answered ++ [held]
        unreleased := delivery.unreleased } where
  follows := settled.follows
  owners := settled.owners
  owned := by
    have holds : delivery.agent.drain.held = some held := by
      rw [posting]
      rfl
    rintro other (member | same)
    · rcases List.mem_append.mp member with old | new
      · exact settled.owned other (Or.inl old)
      · rw [List.mem_singleton.mp new]
        exact settled.owned held (Or.inr holds)
    · cases same
      exact settled.owned held (Or.inr holds)
  gone := by
    intro other member released
    rcases List.mem_append.mp member with old | new
    · refine Or.inr (settled.gone_of_not_releasing ?_ other old released)
      rw [posting]
      rintro held turn ⟨⟩
    · rw [List.mem_singleton.mp new]
      exact Or.inl ⟨turn, rfl⟩
  fresh := by
    rintro held ⟨⟩

/-- `Drain` gives up the entry that it holds. -/
theorem Settled.idle
    (elsewhere : ∀ held turn, delivery.agent.drain ≠ .releasing held turn)
    {https : HTTPS} (queue : https.queue = delivery.agent.https.queue)
    (refused : List (Option Nat)) :
    Settled maxBytes
      { delivery with
        agent := { delivery.agent with
          https := https
          drain := .idle
          refused := refused } } where
  follows := by
    obtain ⟨spool, configured, follows⟩ := settled.follows
    exact ⟨spool, queue.trans configured, follows⟩
  owners := settled.owners
  owned := by
    rintro held (member | holds)
    · exact settled.owned held (Or.inl member)
    · cases holds
  gone held member released :=
    Or.inr (settled.gone_of_not_releasing elsewhere held member released)
  fresh := by
    rintro held ⟨⟩

theorem Settled.answerDrain
    {reply : Reply} (step : delivery.agent.answerDrain reply = some after) :
    { delivery with
      agent := after
      answered := delivery.answered ++
        delivery.agent.answeredBy (.answerDrain reply) }.Settled
      maxBytes := by
  rw [Agent.answerDrain] at step
  split at step
  · rename_i held posting
    rcases Agent.judge_cases (post reply) with
      ⟨-, judged⟩ | ⟨fault, -, -, judged⟩ | ⟨fault, -, -, judged⟩
    · simp only [judged, Option.some.injEq] at step
      subst step
      simp only [Agent.answeredBy, posting, judged]
      exact settled.settle posting .drained _
    · simp only [judged, Option.some.injEq] at step
      subst step
      simp only [Agent.answeredBy, posting, judged]
      exact settled.settle posting .refused _
    · simp only [judged, Option.some.injEq] at step
      subst step
      simp only [Agent.answeredBy, posting, judged, List.append_nil]
      refine settled.idle ?_ rfl _
      rw [posting]
      rintro held turn ⟨⟩
  · cases step

theorem Settled.release
    (step : delivery.agent.release verdicts = some after) :
    { delivery with
      agent := after
      unreleased := delivery.unreleased ++
        after.unreleasedBy (.release verdicts) }.Settled maxBytes := by
  obtain ⟨spool, configured, follows⟩ := settled.follows
  rw [Agent.release, configured] at step
  split at step
  · rename_i held turn current releasing same
    cases same
    split at step
    · rename_i directory result released unused ran
      obtain ⟨kept, subset, removed⟩ := Program.finished_of_wp
        (follows.wp_release held.entry.name) ran
      cases step
      refine ⟨⟨result, rfl, kept⟩, settled.owners, ?_, ?_, ?_⟩
      · rintro other (member | holds)
        · exact settled.owned other (Or.inl member)
        · cases holds
          exact settled.owned held (Or.inr (by rw [releasing]; rfl))
      · intro other member absent
        rw [List.mem_append, not_or] at absent
        refine Or.inr ?_
        intro entry queued same
        rcases settled.gone other member absent.1 with ⟨_, still⟩ | gone
        · -- The entry just released: the error would be noted.
          rw [releasing] at still
          cases still
          cases released with
          | none => exact absurd same (removed rfl entry queued)
          | some fault =>
            exact absurd (List.mem_singleton.mpr rfl) absent.2
        · exact gone entry (subset entry queued) same
      · rintro held ⟨⟩
    · cases step
  · cases step

theorem Settled.count (step : delivery.agent.count = some after) :
    { delivery with agent := after }.Settled maxBytes := by
  rw [Agent.count] at step
  split at step
  · rename_i held turn released counting
    cases step
    refine settled.idle ?_ ?_ _
    · rw [counting]
      rintro held turn ⟨⟩
    · cases released <;> cases turn <;> rfl
  · cases step

/-! ### Runs -/

theorem Settled.step
    {move : Move} {next : Delivery} (step : delivery.step move = some next) :
    next.Settled maxBytes := by
  obtain ⟨after, moved, rfl⟩ := Option.map_eq_some_iff.mp step
  cases move <;>
    simp only [Agent.answeredBy, Agent.unreleasedBy, List.append_nil]
  case answerDrain => exact settled.answerDrain moved
  case release => exact settled.release moved
  case send encoded =>
    cases moved
    exact settled.apart (apart_send encoded delivery.agent)
  case enqueue => exact settled.enqueue moved
  case answer | readDropped | swapDropped | reportDropped =>
    simp only [Agent.step, Agent.answer, Agent.readDropped,
      Agent.swapDropped, Agent.reportDropped] at moved
    split at moved <;> cases moved
    refine settled.apart ⟨rfl, ?_, rfl, rfl, fun _ past =>
      past.advance ‹_› _ ?_⟩
    · first | rfl | exact settle_queue _ _ |
        exact HTTPS.queue_reportDropped _ _
    · first | exact fun _ => Option.some_ne_none _ |
        exact fun waiting => absurd rfl waiting
  case peek => exact settled.peek moved
  case count => exact settled.count moved

end Settled

theorem settled_of_reachable {recorded : Bool}
    (reachable : (deliveryMachine maxBytes recorded).Reachable delivery) :
    delivery.Settled maxBytes := by
  apply reachable.invariant
  · rintro delivery ⟨opened, answered, unreleased⟩
    obtain ⟨before, verdicts, spool, unused, stored, ran, https, -, -⟩ :=
      opened.opens
    refine ⟨⟨spool, by rw [https], follows_of_open stored ran⟩,
      ?_, ?_, ?_, ?_⟩
    · rw [opened.owners]
      exact nofun
    · rw [answered, opened.drain]
      rintro held (member | holds)
      · cases member
      · cases holds
    · rw [answered]
      exact nofun
    · rw [opened.drain]
      exact nofun
  · intro delivery move after _ settled step
    exact settled.step step

end Steps

end Delivery

/-! ## The property -/

/--
An entry that the edge has accepted, or refused for good, is not posted again
unless its `Release` failed.
-/
theorem answered_entry_not_posted_again
    {maxBytes : Int64} {recorded : Bool} {delivery : Delivery}
    (reachable : (deliveryMachine maxBytes recorded).Reachable delivery)
    {held : Held} (answered : held ∈ delivery.answered)
    (released : held ∉ delivery.unreleased) :
    delivery.agent.drain ≠ .posting held := by
  intro posting
  have settled := Delivery.settled_of_reachable reachable
  exact released (settled.fresh held posting answered)

/-- The batch of the first call, as it is spooled. -/
def firstHeld : Held := ⟨⟨entryName 1 1, [7]⟩, some 0⟩

def freshDelivery : Delivery := ⟨freshAgent 1 true, [], []⟩

/-- The spooled batch is posted and accepted, and the next turn begins. -/
def drainMoves (removal : FsVerdict) : List Move :=
  spooledMoves ++ [.peek [.proceed, .proceed], .answerDrain (.answered 200),
      .release [removal], .count, .peek [.proceed, .proceed]]

theorem reachable_of_drainMoves {removal : FsVerdict} {delivery : Delivery}
    (run : (deliveryMachine 1 true).run freshDelivery
      (drainMoves removal) = some delivery) :
    (deliveryMachine 1 true).Reachable delivery := by
  have opened : (deliveryMachine 1 true).initial freshDelivery :=
    ⟨freshAgent_opened (by decide) true, rfl, rfl⟩
  exact (Machine.Reachable.start opened).run run

def releasedDelivery : Delivery :=
  ((deliveryMachine 1 true).run freshDelivery
    (drainMoves .proceed)).get (by decide)

theorem answered_entry_not_posted_again_released :
    firstHeld ∈ releasedDelivery.answered ∧
      releasedDelivery.agent.drain ≠ .posting firstHeld := by
  have answered : firstHeld ∈ releasedDelivery.answered := by decide
  refine ⟨answered, answered_entry_not_posted_again
    (reachable_of_drainMoves (Option.some_get _).symm) answered ?_⟩
  decide

/-- If its file is not removed, an accepted entry is posted again. -/
theorem accepted_entry_posted_again :
    ∃ delivery, (deliveryMachine 1 true).Reachable delivery ∧
      firstHeld ∈ delivery.answered ∧
        delivery.agent.drain = .posting firstHeld := by
  refine ⟨((deliveryMachine 1 true).run freshDelivery
    (drainMoves (.fail 0))).get (by decide),
    reachable_of_drainMoves (Option.some_get _).symm, ?_, ?_⟩
  · decide
  · decide

end Ironclaw.Transport
