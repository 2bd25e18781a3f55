import Ironclaw.Pipeline.Batcher
import Mathlib.Algebra.Order.Group.Multiset
import Mathlib.Data.List.Flatten

/-!
# The accounts of the batcher

Every accepted event is pending or in a flushed batch, and every flushed batch
is in exactly one place: handed to the transport, in the queue, dropped, or in
the hands of the collector.  The batches handed out, those in the queue and
the one on its way into it stand in the order in which they were flushed.
-/

namespace Ironclaw.Pipeline

open Lib Domain List Option Int64

/-- The events of batches, in order. -/
def contents (batches : List Batch) : List Event :=
  batches.flatMap Batch.events

theorem contents_append (first second : List Batch) :
    contents (first ++ second) = contents first ++ contents second :=
  flatMap_append

/-- What a batch of the configured device is made of. -/
structure Formed (settings : Settings) (batch : Batch) : Prop where
  device : batch.deviceID = settings.deviceID
  nonempty : batch.events ≠ []
  bounded : batch.events.length ≤ settings.maxEvents
  valid : ∀ event ∈ batch.events,
    event.validate = none ∧ event.deviceID = settings.deviceID

/-! ## What the stages hold -/

namespace Collector

def pending : Collector → List Event
  | .selecting pending => pending
  | _ => []

/-- The flushed batches in the hands of the collector. -/
def held : Collector → List Batch
  | .enqueueing batch _ | .evicting batch _ => [batch]
  | .replacing evicted batch _ => [evicted, batch]
  | .recording outcome _ => outcome.dropped
  | _ => []

/-- The batch on its way into the queue. -/
def entering : Collector → List Batch
  | .enqueueing batch _ | .evicting batch _ | .replacing _ batch _ => [batch]
  | _ => []

/-- Whether the loops have not started or have ended. -/
def quiet : Collector → Bool
  | .idle | .returned _ => true
  | _ => false

end Collector

namespace Sender

/-- The batch that the transport has not answered yet. -/
def holding : Sender → List Batch
  | .sending batch => [batch]
  | _ => []

def running : Sender → Bool
  | .ranging | .sending _ => true
  | _ => false

theorem holding_of_stopped
    {sender : Sender} (stopped : sender.running = false) :
    sender.holding = [] := by
  cases sender with
  | sending batch => cases stopped
  | idle | ranging | done => rfl

end Sender

namespace Batcher

variable {settings : Settings}
variable {batch : Batch} {result : Option Fault}

theorem accepts_iff (event : Event) : accepts settings event = true ↔
      event.validate = none ∧ event.deviceID = settings.deviceID := by
  simp [accepts]

/-! ## The counters -/

/-- The counters are the numbers of what was recorded, modulo `2^64`. -/
structure Counted (batcher : Batcher settings) : Prop where
  accepted : batcher.stats.eventsAccepted =
    ofNat batcher.accepted.length
  eventsDropped : batcher.stats.eventsDropped =
    ofNat (contents batcher.dropped).length
  batchesDropped : batcher.stats.batchesDropped =
    ofNat batcher.dropped.length
  sent : batcher.stats.batchesSent = ofNat batcher.sent.length
  failed : batcher.stats.sendFailures = ofNat batcher.failed.length

/-- The loop over the dropped batches adds their number and their events. -/
theorem foldl_countDropped (batches : List Batch) (stats : Stats) :
    batches.foldl countDropped stats =
      { stats with
        batchesDropped := stats.batchesDropped + ofNat batches.length
        eventsDropped :=
          stats.eventsDropped + ofNat (contents batches).length } := by
  induction batches generalizing stats with
  | nil => simp [contents]
  | cons batch rest induction =>
    rw [foldl_cons, induction]
    have events : (contents (batch :: rest)).length =
        batch.events.length + (contents rest).length :=
      length_append
    rw [events, length_cons, ofNat_add, Word.ofNat_succ,
      ← add_assoc, add_comm (ofNat rest.length), ← add_assoc]
    rfl

/-! ## The books -/

/--
Where the events and the batches are.  `pending`, `held` and `entering` are
what the collector has; the rest is read off the batcher.
-/
structure Books
    (batcher : Batcher settings) (pending : List Event)
    (held entering : List Batch) : Prop where
  accepted : batcher.accepted = contents batcher.flushed ++ pending
  pending : ∀ event ∈ pending, accepts settings event = true
  placed : (batcher.flushed : Multiset Batch) =
    batcher.handed + batcher.queue + batcher.dropped + held
  order : (batcher.handed ++ batcher.queue ++ entering).Sublist
    batcher.flushed
  answered : (batcher.handed : Multiset Batch) =
    batcher.sent + batcher.failed + batcher.sender.holding
  formed : ∀ batch ∈ batcher.flushed, Formed settings batch
  counted : batcher.Counted

section Books

variable {batcher : Batcher settings} {pending : List Event}
variable {held entering : List Batch}

section Books

variable (books : batcher.Books pending held entering)
include books

theorem Books.move (collector : Collector) :
    ({ batcher with collector := collector } : Batcher settings).Books
      pending held entering :=
  { books with counted := { books.counted with } }

theorem Books.forget : batcher.Books pending held [] :=
  { books with
    order := by
      apply Sublist.trans _ books.order
      exact (Sublist.refl _).append (nil_sublist _) }

/-- An accepted event is pending. -/
theorem Books.accept
    {event : Event} (accepted : accepts settings event = true) :
    (batcher.accept event).Books (pending ++ [event]) held entering :=
  { books with
    accepted := by
      rw [← append_assoc]
      exact congrArg (· ++ [event]) books.accepted
    pending := forall_mem_concat books.pending accepted
    counted := { books.counted with
      accepted := by
        simp only [Batcher.accept, length_append,
          length_singleton, Word.ofNat_succ,
          books.counted.accepted] } }

theorem Books.reject : batcher.reject.Books pending held entering :=
  { books with counted := { books.counted with } }

end Books

/-- A flush moves the pending events into a batch. -/
theorem Books.flush
    (books : batcher.Books pending [] []) (now : Time) (next : Next)
    (bounded : pending.length ≤ settings.maxEvents) :
    (batcher.flush pending now next).Books [] 
      (batcher.flush pending now next).collector.held
      (batcher.flush pending now next).collector.entering := by
  rw [Batcher.flush]
  split
  · rename_i empty
    subst empty
    cases next <;> exact books.move _
  · rename_i present
    let batch : Batch := ⟨settings.deviceID, now, pending⟩
    have formed : Formed settings batch :=
      ⟨rfl, present, bounded, fun event member =>
        (accepts_iff event).mp (books.pending event member)⟩
    exact {
      accepted := by
        rw [contents_append, append_nil]
        exact books.accepted.trans (congrArg (contents batcher.flushed ++ ·)
          (append_nil pending).symm)
      pending := by
        intro event member
        cases member
      placed := by
        have placed := books.placed
        rw [Multiset.coe_nil, add_zero] at placed
        simp only [← Multiset.coe_add, placed, Collector.held]
      order := by
        have order := books.order
        rw [append_nil] at order
        exact order.append (Sublist.refl _)
      answered := books.answered
      formed := forall_mem_concat books.formed formed
      counted := { books.counted with } }

/-- The batch that was on its way enters the queue. -/
theorem Books.push (books : batcher.Books pending (held ++ [batch]) [batch])
    (collector : Collector) :
    ({ batcher with
      queue := batcher.queue ++ [batch]
      collector := collector } : Batcher settings).Books pending held [] :=
  { books with
    placed := by
      have placed := books.placed
      simp only [← Multiset.coe_add] at placed ⊢
      rw [placed]
      ac_rfl
    order := by
      rw [append_nil, ← append_assoc]
      exact books.order
    counted := { books.counted with } }

section Books

variable (books : batcher.Books pending held entering)
include books

/-- The oldest batch is taken out of the queue. -/
theorem Books.evict {evicted : Batch} {rest : List Batch}
    (waiting : batcher.queue = evicted :: rest) (collector : Collector) :
    ({ batcher with queue := rest, collector := collector } :
      Batcher settings).Books pending (evicted :: held) entering :=
  { books with
    placed := by
      have placed := books.placed
      rw [waiting] at placed
      rw [← singleton_append, ← singleton_append] at *
      simp only [← Multiset.coe_add] at placed ⊢
      rw [placed]
      ac_rfl
    order := by
      apply Sublist.trans _ books.order
      rw [waiting]
      apply Sublist.append _ (Sublist.refl _)
      exact (Sublist.refl _).append (sublist_cons_self _ _)
    counted := { books.counted with } }

/-- What the collector held is counted as dropped. -/
theorem Books.record (enqueued : Int64) (collector : Collector) :
    ({ batcher with
      collector := collector
      stats := held.foldl countDropped
        { batcher.stats with batchesEnqueued := enqueued }
      dropped := batcher.dropped ++ held } : Batcher settings).Books
        pending [] entering :=
  { books with
    placed := by
      have placed := books.placed
      simp only [← Multiset.coe_add, Multiset.coe_nil, add_zero]
      rw [placed]
      ac_rfl
    counted := by
      have counted := books.counted
      rw [foldl_countDropped]
      constructor
      · exact counted.accepted
      · simp only [contents_append, length_append, ofNat_add,
          counted.eventsDropped]
      · simp only [length_append, ofNat_add, counted.batchesDropped]
      · exact counted.sent
      · exact counted.failed }

/-- The sender takes the oldest batch of the queue. -/
theorem Books.take
    {rest : List Batch} (waiting : batcher.queue = batch :: rest)
    (ranging : batcher.sender = .ranging) :
    ({ batcher with
      queue := rest
      sender := .sending batch
      handed := batcher.handed ++ [batch] } : Batcher settings).Books
        pending held entering :=
  { books with
    placed := by
      have placed := books.placed
      rw [waiting, ← singleton_append] at placed
      simp only [← Multiset.coe_add] at placed ⊢
      rw [placed]
      ac_rfl
    order := by
      have order := books.order
      rw [waiting] at order
      simpa using order
    answered := by
      have answered := books.answered
      rw [ranging] at answered
      simp only [← Multiset.coe_add, answered, Sender.holding,
        Multiset.coe_nil, add_zero]
    counted := { books.counted with } }

theorem Books.idle {sender : Sender}
    (free : batcher.sender.holding = []) (empty : sender.holding = []) :
    ({ batcher with sender := sender } : Batcher settings).Books
      pending held entering :=
  { books with
    answered := by
      have answered := books.answered
      rw [free] at answered
      rw [answered, empty]
    counted := { books.counted with } }

/-- The batch in the hands of the sender joins the answered ones. -/
theorem Books.answer {sent failed : List Batch} {stats : Stats}
    (sending : batcher.sender = .sending batch)
    (joined : (sent ++ failed).Perm
      (batcher.sent ++ batcher.failed ++ [batch]))
    (counted : ({ batcher with
      sender := .ranging
      sent := sent
      failed := failed
      stats := stats } : Batcher settings).Counted) :
    ({ batcher with
      sender := .ranging
      sent := sent
      failed := failed
      stats := stats } : Batcher settings).Books pending held entering :=
  { books with
    answered := by
      have answered := books.answered
      rw [sending] at answered
      have same := Multiset.coe_eq_coe.mpr joined
      simp only [← Multiset.coe_add] at same
      simp only [Sender.holding, Multiset.coe_nil, add_zero]
      rw [answered, same]
      rfl
    counted := counted }

/-- An answer of the transport settles the batch it is for. -/
theorem Books.settle {after : Batcher settings}
    (settled : batcher.settle result = some after) :
    after.Books pending held entering := by
  have counted := books.counted
  rw [Batcher.settle] at settled
  cases stage : batcher.sender with
  | sending batch =>
    rw [stage] at settled
    cases result with
    | none =>
      cases settled
      apply books.answer stage
      · rw [append_assoc, append_assoc]
        exact perm_append_comm.append_left _
      · exact { counted with
          sent := by
            simp only [length_append, length_singleton,
              Word.ofNat_succ, counted.sent] }
    | some fault =>
      cases settled
      apply books.answer stage
      · rw [append_assoc]
      · exact { counted with
          failed := by
            simp only [length_append, length_singleton,
              Word.ofNat_succ, counted.failed] }
  | idle | ranging | done => simp [stage] at settled

end Books

end Books

/-! ## Every step keeps the books -/

/-- The books, with what the ends of the two loops leave behind. -/
structure Sound (batcher : Batcher settings) : Prop where
  books : batcher.Books batcher.collector.pending batcher.collector.held
    batcher.collector.entering
  short : batcher.collector.pending.length < settings.maxEvents
  drained : batcher.sender = .done →
    batcher.queue = [] ∧ batcher.collector.closed = true
  quiet : batcher.collector.quiet = true →
    batcher.queue = [] ∧ batcher.sender.running = false

theorem sound_new (settings : Settings) : (new settings).Sound where
  books := {
    accepted := rfl
    pending := by
      intro event member
      cases member
    placed := rfl
    order := Sublist.refl _
    answered := rfl
    formed := by
      intro batch member
      cases member
    counted := ⟨rfl, rfl, rfl, rfl, rfl⟩ }
  short := settings.bounds.2.1
  drained := by rintro ⟨⟩
  quiet _ := ⟨rfl, rfl⟩

section Steps

variable {batcher after : Batcher settings}
variable {now : Time}

section Sound

variable (sound : batcher.Sound)
include sound

theorem Sound.at
    {collector : Collector} (stage : batcher.collector = collector) :
    batcher.Books collector.pending collector.held collector.entering :=
  stage ▸ sound.books

/-- A step of the collector between the start and the end of its loop. -/
theorem Sound.advance
    {collector : Collector} (stage : batcher.collector = collector)
    (opened : collector.closed = false) (same : after.sender = batcher.sender)
    (busy : after.collector.quiet = false)
    (short : after.collector.pending.length < settings.maxEvents)
    (books : after.Books after.collector.pending after.collector.held
      after.collector.entering) : after.Sound where
  books := books
  short := short
  drained := by
    intro done
    rw [same] at done
    have closed := (sound.drained done).2
    rw [stage, opened] at closed
    cases closed
  quiet := by
    intro ended
    rw [busy] at ended
    cases ended

theorem Sound.run {launch : Launch} (step : batcher.run launch = some after) :
    after.Sound := by
  cases stage : batcher.collector with
  | idle =>
    have books := sound.at stage
    have still := sound.quiet (congrArg Collector.quiet stage)
    have ended : ∀ fault, ({ batcher with
        collector := .returned (some fault) } : Batcher settings).Sound :=
      fun fault => {
        books := books.move _
        short := settings.bounds.2.1
        drained := fun _ => ⟨still.1, rfl⟩
        quiet := fun _ => still }
    simp only [Batcher.run, stage] at step
    cases launch with
    | nilSource =>
      cases step
      exact ended errNilSource
    | nilTransport =>
      cases step
      exact ended errNilTransport
    | refused fault =>
      cases step
      exact ended fault
    | started =>
      cases step
      have free := Sender.holding_of_stopped still.2
      exact {
        books := @Books.move _ { batcher with sender := .ranging } _ _ _
          (books.idle free rfl) (.selecting [])
        short := settings.bounds.2.1
        drained := by rintro ⟨⟩
        quiet := by rintro ⟨⟩ }
  | _ => simp [Batcher.run, stage] at step

theorem Sound.cancel
    {fault : Fault} (step : batcher.cancel fault = some after) :
    after.Sound := by
  cases live : batcher.context with
  | none =>
    simp only [Batcher.cancel, live, some.injEq] at step
    subst step
    exact { sound with
      books := { sound.books with
        counted := { sound.books.counted with } } }
  | some earlier => simp [Batcher.cancel, live] at step

/-- A flush of all pending events. -/
theorem Sound.flush {pending : List Event} {collector : Collector}
    (stage : batcher.collector = collector)
    (opened : collector.closed = false) {accepting : Batcher settings}
    (same : accepting.sender = batcher.sender)
    (books : accepting.Books pending [] []) (now : Time) (next : Next)
    (bounded : pending.length ≤ settings.maxEvents) :
    (accepting.flush pending now next).Sound := by
  have flushed := books.flush now next bounded
  have emptied : (accepting.flush pending now next).collector.pending = [] ∧
      (accepting.flush pending now next).collector.quiet = false ∧
      (accepting.flush pending now next).sender = batcher.sender := by
    rw [Batcher.flush]
    split
    · cases next <;> exact ⟨rfl, rfl, same⟩
    · exact ⟨rfl, rfl, same⟩
  apply sound.advance stage opened emptied.2.2 emptied.2.1
  · rw [emptied.1]
    exact settings.bounds.2.1
  · rw [emptied.1]
    exact flushed

theorem Sound.flush_pending {pending : List Event}
    (selecting : batcher.collector = .selecting pending)
    (now : Time) (next : Next) : (batcher.flush pending now next).Sound := by
  have short := sound.short
  rw [selecting] at short
  exact sound.flush selecting rfl rfl (sound.at selecting) now next short.le

theorem Sound.receive
    {event : Event} (step : batcher.receive event now = some after) :
    after.Sound := by
  cases stage : batcher.collector with
  | selecting pending =>
    have books := sound.at stage
    have short := sound.short
    rw [stage] at short
    simp only [Batcher.receive, stage] at step
    split at step
    · rename_i accepted
      have grown : (batcher.accept event).Books (pending ++ [event])
          [] [] := books.accept accepted
      split at step
      · cases step
        have same : (batcher.accept event).sender = batcher.sender := rfl
        apply sound.flush stage rfl same grown
        rw [length_append]
        exact short
      · rename_i fits
        cases step
        exact sound.advance stage rfl rfl rfl (not_le.mp fits) (grown.move _)
    · cases step
      have kept : batcher.reject.collector = .selecting pending := stage
      have same : batcher.reject.sender = batcher.sender := rfl
      apply sound.advance stage rfl same
      · rw [kept]
        rfl
      · rw [kept]
        exact short
      · rw [kept]
        exact books.reject
  | _ => simp [Batcher.receive, stage] at step

theorem Sound.push {dropped : List Batch} {next : Next}
    {collector : Collector} (stage : batcher.collector = collector)
    (opened : collector.closed = false)
    (step : batcher.push batch dropped next = some after)
    (books : batcher.Books [] (dropped ++ [batch]) [batch]) :
    after.Sound := by
  rw [Batcher.push] at step
  split at step
  · cases step
    exact sound.advance stage opened rfl rfl settings.bounds.2.1
      (books.push _)
  · cases step

theorem Sound.drop {held entering : List Batch} {next : Next}
    {collector : Collector} (stage : batcher.collector = collector)
    (opened : collector.closed = false)
    (books : batcher.Books [] held entering) :
    (batcher.drop held next).Sound := by
  have same : (batcher.drop held next).sender = batcher.sender := rfl
  apply sound.advance stage opened same rfl settings.bounds.2.1
  exact books.forget.move _

theorem Sound.enqueue (step : batcher.enqueue = some after) :
    after.Sound := by
  cases stage : batcher.collector with
  | enqueueing batch next =>
    have books := sound.at stage
    simp only [Batcher.enqueue, stage, or_eq_some_iff] at step
    rcases step with pushed | ⟨_, rest⟩
    · exact sound.push stage rfl pushed books
    · cases strategy : settings.strategy with
      | dropOldest =>
        simp only [strategy, some.injEq] at rest
        subst rest
        exact sound.advance stage rfl rfl rfl settings.bounds.2.1
          (books.move _)
      | dropNewest =>
        simp only [strategy, some.injEq] at rest
        subst rest
        exact sound.drop stage rfl books
      | blocking => simp [strategy] at rest
  | evicting batch next =>
    have books := sound.at stage
    simp only [Batcher.enqueue, stage] at step
    cases waiting : batcher.queue with
    | nil =>
      simp only [waiting, some.injEq] at step
      subst step
      exact sound.drop stage rfl books
    | cons evicted rest =>
      simp only [waiting, some.injEq] at step
      subst step
      exact sound.advance stage rfl rfl rfl settings.bounds.2.1
        (books.evict waiting _)
  | replacing evicted batch next =>
    have books := sound.at stage
    simp only [Batcher.enqueue, stage, or_eq_some_iff, some.injEq] at step
    rcases step with pushed | ⟨_, rest⟩
    · exact sound.push stage rfl pushed books
    · subst rest
      exact sound.drop stage rfl books
  | _ => simp [Batcher.enqueue, stage] at step

theorem Sound.expire (step : batcher.expire = some after) : after.Sound := by
  simp only [Batcher.expire] at step
  split at step
  · rename_i batch next fault stage _ _
    cases step
    exact sound.drop stage rfl (sound.at stage)
  · cases step

theorem Sound.record (step : batcher.record = some after) : after.Sound := by
  simp only [Batcher.record] at step
  split at step
  · rename_i outcome next stage
    cases step
    cases next <;>
      exact sound.advance stage rfl rfl rfl settings.bounds.2.1
        ((sound.at stage).record _ _)
  · cases step

theorem Sound.close (step : batcher.close = some after) : after.Sound := by
  simp only [Batcher.close] at step
  split at step
  · rename_i result stage
    cases step
    exact sound.advance stage rfl rfl rfl settings.bounds.2.1
      ((sound.at stage).move _)
  · cases step

theorem Sound.wait (step : batcher.wait = some after) : after.Sound := by
  simp only [Batcher.wait] at step
  split at step
  · rename_i result stage ended
    cases step
    have drained := (sound.drained ended).1
    exact {
      books := (sound.at stage).move _
      short := settings.bounds.2.1
      drained := fun _ => ⟨drained, rfl⟩
      quiet := fun _ => ⟨drained, congrArg Sender.running ended⟩ }
  · cases step

theorem Sound.busy (running : batcher.sender.running = true) :
    batcher.collector.quiet = false := by
  cases ended : batcher.collector.quiet with
  | false => rfl
  | true =>
    have still := (sound.quiet ended).2
    rw [running] at still
    cases still

theorem Sound.take (step : batcher.take = some after) : after.Sound := by
  simp only [Batcher.take] at step
  split at step
  · rename_i worker
    have busy := sound.busy (congrArg Sender.running worker)
    split at step
    · rename_i batch rest waiting
      cases step
      exact {
        books := sound.books.take waiting worker
        short := sound.short
        drained := by rintro ⟨⟩
        quiet := by
          intro ended
          exact absurd (busy.symm.trans ended) (by decide) }
    · rename_i waiting
      split at step
      · rename_i closed
        cases step
        exact {
          books := sound.books.idle (congrArg Sender.holding worker) rfl
          short := sound.short
          drained := fun _ => ⟨waiting, closed⟩
          quiet := fun _ => ⟨waiting, rfl⟩ }
      · cases step
  · cases step

theorem Sound.settle (step : batcher.settle result = some after) :
    after.Sound := by
  have books := sound.books.settle step
  cases worker : batcher.sender with
  | sending batch =>
    have busy := sound.busy (congrArg Sender.running worker)
    have same : after.collector = batcher.collector ∧
        after.sender = .ranging := by
      simp only [Batcher.settle, worker] at step
      cases result <;>
        cases step <;>
        exact ⟨rfl, rfl⟩
    exact {
      books := by
        rw [same.1]
        exact books
      short := by
        rw [same.1]
        exact sound.short
      drained := by
        intro done
        cases same.2.symm.trans done
      quiet := by
        intro ended
        rw [same.1] at ended
        exact absurd (busy.symm.trans ended) (by decide) }
  | _ => simp [Batcher.settle, worker] at step

theorem Sound.step
    {action : Action} (step : batcher.step action = some after) :
    after.Sound := by
  cases action with
  | run launch => exact sound.run step
  | cancel fault => exact sound.cancel step
  | stop | exhaust | tick =>
    simp only [Batcher.step, Batcher.stop, Batcher.exhaust,
      Batcher.tick] at step
    (repeat' split at step) <;> cases step
    all_goals first | exact sound | exact sound.flush_pending ‹_› _ _
  | receive event now => exact sound.receive step
  | enqueue => exact sound.enqueue step
  | expire => exact sound.expire step
  | record => exact sound.record step
  | close => exact sound.close step
  | wait => exact sound.wait step
  | take => exact sound.take step
  | settle result => exact sound.settle step

end Sound

theorem sound_of_reachable
    (reachable : (machine settings).Reachable batcher) : batcher.Sound := by
  apply reachable.invariant
  · rintro state rfl
    exact sound_new settings
  · intro before action later _ sound step
    exact sound.step step

/-- Once `Run` has returned, every flushed batch was answered or dropped. -/
theorem Sound.answered (sound : batcher.Sound)
    (returned : batcher.collector = .returned result) :
    batcher.handed.Perm (batcher.sent ++ batcher.failed) ∧
      batcher.flushed.Perm
        (batcher.sent ++ batcher.failed ++ batcher.dropped) := by
  have books := sound.at returned
  rcases sound.quiet (congrArg Collector.quiet returned) with ⟨empty, stopped⟩
  have answered : batcher.handed.Perm (batcher.sent ++ batcher.failed) := by
    have answered := books.answered
    rw [Sender.holding_of_stopped stopped, Multiset.coe_nil,
      add_zero] at answered
    exact Multiset.coe_eq_coe.mp answered
  have placed := books.placed
  rw [empty] at placed
  simp only [Multiset.coe_nil, add_zero, Collector.held] at placed
  exact ⟨answered, (Multiset.coe_eq_coe.mp placed).trans
    (answered.append_right batcher.dropped)⟩

theorem Sound.length_accepted (sound : batcher.Sound)
    (returned : batcher.collector = .returned result) :
    batcher.accepted.length = (contents batcher.sent).length +
      (contents batcher.failed).length +
        (contents batcher.dropped).length := by
  have books := sound.at returned
  have accepted : batcher.accepted = contents batcher.flushed :=
    books.accepted.trans (append_nil _)
  have answered := ((sound.answered returned).2.flatMap_right
    Batch.events).length_eq
  rw [accepted, contents, answered, ← contents, contents_append,
    contents_append, length_append, length_append]

end Steps

end Batcher

/-! ## What a run leaves behind -/

/--
When `Run` has returned, every accepted event is in a batch that was sent, in
one whose send failed, or in one that was dropped, and each is counted once.
What the transport was handed are well-formed batches whose events are some of
the accepted ones, in the order of their arrival.
-/
theorem batcher_conserves_events
    {settings : Settings} {batcher : Batcher settings}
    (reachable : (Batcher.machine settings).Reachable batcher)
    {result : Option Fault} (returned : batcher.collector = .returned result) :
    batcher.stats.eventsAccepted =
        ofNat (contents batcher.sent).length +
          ofNat (contents batcher.failed).length +
            batcher.stats.eventsDropped ∧
      batcher.stats.batchesSent + batcher.stats.sendFailures +
          batcher.stats.batchesDropped =
        ofNat batcher.flushed.length ∧
      (∀ batch ∈ batcher.handed, Formed settings batch) ∧
      (contents batcher.handed).Sublist batcher.accepted ∧
      (batcher.accepted.length = (contents batcher.sent).length +
          (contents batcher.failed).length +
            (contents batcher.dropped).length ∧
        batcher.stats.eventsAccepted = ofNat batcher.accepted.length ∧
        batcher.stats.eventsDropped =
          ofNat (contents batcher.dropped).length) := by
  have sound := Batcher.sound_of_reachable reachable
  have books := sound.at returned
  have empty := (sound.quiet (congrArg Collector.quiet returned)).1
  have counted := books.counted
  rcases sound.answered returned with ⟨answered, placed⟩
  have accepted : batcher.accepted = contents batcher.flushed :=
    books.accepted.trans (append_nil _)
  have total := sound.length_accepted returned
  have order : (contents batcher.handed).Sublist batcher.accepted := by
    rw [accepted]
    have order := books.order
    rw [empty] at order
    simp only [append_nil, Collector.entering] at order
    exact order.flatMap Batch.events
  refine ⟨?_, ?_, ?_, order, total, counted.accepted, counted.eventsDropped⟩
  · rw [counted.accepted, counted.eventsDropped, total, ofNat_add,
      ofNat_add]
  · rw [counted.sent, counted.failed, counted.batchesDropped,
      ← ofNat_add, ← ofNat_add, placed.length_eq,
      length_append, length_append]
  · intro batch member
    apply books.formed batch
    exact placed.mem_iff.mpr (mem_append_left _ (answered.mem_iff.mp member))

/--
At every moment the accepted events are those of the flushed batches and the
pending ones, in their order, and less than a batch is pending.  A flushed
batch is with the transport, queued, dropped or in the collector's hands, and
batches overtake each other nowhere.
-/
theorem batches_keep_order
    {settings : Settings} {batcher : Batcher settings}
    (reachable : (Batcher.machine settings).Reachable batcher) :
    batcher.accepted =
        contents batcher.flushed ++ batcher.collector.pending ∧
      batcher.collector.pending.length < settings.maxEvents ∧
      (batcher.handed ++ batcher.queue ++
        batcher.collector.entering).Sublist batcher.flushed ∧
      (batcher.flushed : Multiset Batch) = batcher.handed + batcher.queue +
        batcher.dropped + batcher.collector.held := by
  have sound := Batcher.sound_of_reachable reachable
  exact ⟨sound.books.accepted, sound.short, sound.books.order,
    sound.books.placed⟩

/-- One event a batch, one batch in the queue, the oldest one dropped. -/
def sampleSettings : Settings where
  config := {
    deviceID := "device-1"
    maxEvents := 1
    maxInterval := 1000000000
    queueDepth := 1
    policy := .dropOldest
    flushSignal := false }
  valid := by decide

def sampleEvent (nanos : Int) : Event where
  deviceID := "device-1"
  userID := "user-1"
  processID := 7
  podID := "pod-a"
  kind := .syscall
  observedAt := ⟨nanos⟩
  latencyNanos := 1000
  bytes := 64
  failed := false

/-- The second batch evicts the first one before the sender takes any. -/
def sampleRun : List Action :=
  [.run .started, .receive (sampleEvent 1) ⟨10⟩, .enqueue, .record,
    .receive (sampleEvent 2) ⟨20⟩, .enqueue, .enqueue, .enqueue, .record,
    .take, .settle none, .exhaust ⟨30⟩, .close, .take, .wait]

/-- The batcher after that run. -/
def sampleBatcher : Batcher sampleSettings :=
  ((Batcher.machine sampleSettings).run (.new sampleSettings)
    sampleRun).get (by decide)

theorem sampleBatcher_reachable :
    (Batcher.machine sampleSettings).Reachable sampleBatcher :=
  Machine.Reachable.run (Machine.Reachable.start rfl)
    (Option.some_get _).symm

theorem batcher_conserves_events_example :
    sampleBatcher.stats.eventsAccepted = 2 ∧
      sampleBatcher.stats.eventsDropped = 1 ∧
      sampleBatcher.stats.eventsAccepted =
        ofNat (contents sampleBatcher.sent).length +
          ofNat (contents sampleBatcher.failed).length +
            sampleBatcher.stats.eventsDropped := by
  have returned : sampleBatcher.collector = .returned none := by
    decide
  exact ⟨by decide, by decide,
    (batcher_conserves_events sampleBatcher_reachable returned).1⟩

theorem batches_keep_order_example :
    sampleBatcher.handed.Sublist sampleBatcher.flushed ∧
      sampleBatcher.handed ≠ sampleBatcher.flushed := by
  have order := (batches_keep_order sampleBatcher_reachable).2.2.1
  exact ⟨order, by decide⟩

end Ironclaw.Pipeline
