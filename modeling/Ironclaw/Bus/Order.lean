import Ironclaw.Bus.Ownership
import Ironclaw.Lib.Precedence

/-!
# The order of the handler calls

A channel is first in, first out, and one loop at a time takes values from it.
So the handler calls of a partition follow the order in which its channel took
the values, and all calls for a value are over when the next one is handed
out, whether they succeeded or not.
-/

namespace Ironclaw.Bus

open Lib List Function Slots Broker

variable {settings : Settings} {Value : Type}
variable {value : Value} {partition : Fin settings.partitions}

/-- The numbers of the calls whose values a channel holds. -/
def ids (channel : List (Parcel Value)) : List Nat := channel.map Parcel.id

/-! ## The calls that arrived -/

/-- The arrivals are the accepted calls, each once and at its partition. -/
structure Registered
    (calls : List (SendCall Value))
    (arrivals : Fin settings.partitions → List Nat) : Prop where
  known : ∀ partition, ∀ id ∈ arrivals partition,
    ∃ call, calls[id]? = some call ∧ call.phase.accepted = true ∧
      settings.partitionFor call.key = partition
  complete : ∀ (id : Nat) (call : SendCall Value),
    calls[id]? = some call → call.phase.accepted = true →
      id ∈ arrivals (settings.partitionFor call.key)
  nodup : ∀ partition, (arrivals partition).Nodup

variable {id : Nat}

section Registered

variable {calls : List (SendCall Value)}
variable {arrivals : Fin settings.partitions → List Nat}

section Registered

variable (registered : Registered calls arrivals)
include registered

theorem Registered.partition_eq {first second : Fin settings.partitions}
    (here : id ∈ arrivals first) (there : id ∈ arrivals second) :
    first = second := by
  rcases registered.known first id here with ⟨call, found, _, partition⟩
  rcases registered.known second id there with ⟨other, same, _, elsewhere⟩
  rw [found] at same
  cases same
  exact partition.symm.trans elsewhere

theorem Registered.send (key : String) (value : Value) :
    Registered (calls ++ [⟨key, value, .checking⟩]) arrivals where
  known := by
    intro partition id member
    rcases registered.known partition id member with ⟨call, found, rest⟩
    exact ⟨call, concat_iff.mpr (.inl found), rest⟩
  complete := by
    intro id call found accepted
    rcases concat_iff.mp found with here | ⟨_, rfl⟩
    · exact registered.complete id call here accepted
    · cases accepted
  nodup := registered.nodup

/-- A call moves on without its value. -/
theorem Registered.move {key : String} {old new : Phase}
    (found : calls[id]? = some ⟨key, value, old⟩)
    (same : new.accepted = old.accepted) :
    Registered (calls.set id ⟨key, value, new⟩) arrivals where
  known := by
    intro partition other member
    rcases registered.known partition other member with
      ⟨call, here, accepted, place⟩
    by_cases equal : other = id
    · subst equal
      rw [found] at here
      cases here
      exact ⟨_, set_self _ found, same.trans accepted, place⟩
    · exact ⟨call, set_of_ne _ equal here, accepted, place⟩
  complete := by
    intro other call here accepted
    rcases of_set here with ⟨rfl, rfl⟩ | ⟨_, there⟩
    · exact registered.complete other ⟨key, value, old⟩ found
        (same.symm.trans accepted)
    · exact registered.complete other call there accepted
  nodup := registered.nodup

theorem Registered.notMem {call : SendCall Value}
    (found : calls[id]? = some call) (refused : call.phase.accepted = false)
    (partition : Fin settings.partitions) : id ∉ arrivals partition := by
  intro member
  rcases registered.known partition id member with ⟨other, here, accepted, _⟩
  rw [found] at here
  cases here
  rw [refused] at accepted
  cases accepted

end Registered

theorem mem_arrivals_push {other : Nat} {place : Fin settings.partitions} :
    other ∈ Function.update arrivals partition (arrivals partition ++ [id])
        place ↔
      other ∈ arrivals place ∨ (place = partition ∧ other = id) := by
  by_cases same : place = partition
  · subst same
    rw [update_self]
    simp
  · rw [update_of_ne same]
    simp [same]

theorem Registered.push
    {key : String} (registered : Registered calls arrivals)
    (found : calls[id]? = some ⟨key, value, .selecting⟩) :
    Registered (calls.set id ⟨key, value, .counting⟩)
      (Function.update arrivals (settings.partitionFor key)
        (arrivals (settings.partitionFor key) ++ [id])) where
  known := by
    intro place other member
    rcases mem_arrivals_push.mp member with before | ⟨rfl, rfl⟩
    · rcases registered.known place other before with
        ⟨call, here, accepted, partition⟩
      have different : other ≠ id := by
        rintro rfl
        exact registered.notMem found rfl place before
      exact ⟨call, set_of_ne _ different here, accepted, partition⟩
    · exact ⟨_, set_self _ found, rfl, rfl⟩
  complete := by
    intro other call here accepted
    rcases of_set here with ⟨rfl, rfl⟩ | ⟨_, there⟩
    · exact mem_arrivals_push.mpr (Or.inr ⟨rfl, rfl⟩)
    · exact mem_arrivals_push.mpr
        (Or.inl (registered.complete other call there accepted))
  nodup := by
    intro place
    by_cases same : place = settings.partitionFor key
    · subst same
      rw [update_self]
      apply Nodup.append (registered.nodup _) (nodup_singleton id)
      rw [disjoint_singleton]
      exact registered.notMem found rfl _
    · rw [update_of_ne same]
      exact registered.nodup place

end Registered

/-! ## The lines before the loops -/

/--
The channels hold the last arrivals, a loop works on the one before them, and
the log follows the arrivals.
-/
structure Lined
    (arrivals : Fin settings.partitions → List Nat)
    (channels : Fin settings.partitions → List (Parcel Value))
    (consumers : List (Consumer settings.partitions Value))
    (handed : List (Parcel Value)) : Prop where
  queued : ∀ partition, ids (channels partition) <:+ arrivals partition
  held : ∀ consumer ∈ consumers, ∀ parcel,
    consumer.stage.parcel = some parcel →
      ∃ earlier, arrivals consumer.partition =
        earlier ++ parcel.id :: ids (channels consumer.partition)
  gone : ∀ parcel ∈ handed, ∃ partition,
    parcel.id ∈ arrivals partition ∧ parcel.id ∉ ids (channels partition)
  sorted : handed.Pairwise fun earlier later =>
    ∀ partition, ¬Precedes later.id earlier.id (arrivals partition)

section Lined

variable {calls : List (SendCall Value)}
variable {arrivals : Fin settings.partitions → List Nat}
variable {channels : Fin settings.partitions → List (Parcel Value)}
variable {consumers : List (Consumer settings.partitions Value)}
variable {handed : List (Parcel Value)}
variable {consumer : Consumer settings.partitions Value}
variable {parcel : Parcel Value}

section Lined

variable (lined : Lined arrivals channels consumers handed)
include lined

theorem Lined.of_held
    (registered : Registered calls arrivals) (member : consumer ∈ consumers)
    (held : consumer.stage.parcel = some parcel) :
    parcel.id ∈ arrivals consumer.partition ∧
      parcel.id ∉ ids (channels consumer.partition) := by
  rcases lined.held consumer member parcel held with ⟨earlier, split⟩
  have nodup := registered.nodup consumer.partition
  rw [split] at nodup ⊢
  refine ⟨mem_append_right _ mem_cons_self, ?_⟩
  exact (nodup_cons.mp (Nodup.of_append_right nodup)).1

/-- Nothing that was handed out arrived after what a loop works on. -/
theorem Lined.not_precedes_held
    (registered : Registered calls arrivals) (member : consumer ∈ consumers)
    (held : consumer.stage.parcel = some parcel) {other : Parcel Value}
    (out : other ∈ handed) (partition : Fin settings.partitions) :
    ¬Precedes parcel.id other.id (arrivals partition) := by
  intro precedes
  rcases lined.gone other out with ⟨place, arrived, left⟩
  have inside : parcel.id ∈ arrivals partition ∧
      other.id ∈ arrivals partition := by
    rcases precedes with ⟨earlier, later, split, behind⟩
    rw [split]
    exact ⟨mem_append_right _ mem_cons_self,
      mem_append_right _ (mem_cons_of_mem _ behind)⟩
  have here : partition = consumer.partition :=
    registered.partition_eq inside.1 (lined.of_held registered member held).1
  have there : place = partition := registered.partition_eq arrived inside.2
  subst there
  rcases lined.held consumer member parcel held with ⟨earlier, split⟩
  rw [← here] at split
  exact left (precedes.mem_of_split (registered.nodup place) split)

/-- A channel takes the value of a call that has not arrived yet. -/
theorem Lined.push (fresh : ∀ place, id ∉ arrivals place) : Lined
      (Function.update arrivals partition (arrivals partition ++ [id]))
      (Function.update channels partition
        (channels partition ++ [⟨id, value⟩])) consumers handed where
  queued := by
    intro place
    by_cases same : place = partition
    · subst same
      rw [update_self, update_self, ids, map_append]
      rcases lined.queued place with ⟨earlier, split⟩
      refine ⟨earlier, ?_⟩
      rw [← append_assoc]
      exact congrArg (· ++ [id]) split
    · rw [update_of_ne same, update_of_ne same]
      exact lined.queued place
  held := by
    intro consumer member parcel held
    rcases lined.held consumer member parcel held with ⟨earlier, split⟩
    refine ⟨earlier, ?_⟩
    by_cases same : consumer.partition = partition
    · subst same
      rw [update_self, update_self, split, ids, ids, map_append, append_assoc]
      rfl
    · rw [update_of_ne same, update_of_ne same]
      exact split
  gone := by
    intro parcel member
    rcases lined.gone parcel member with ⟨place, arrived, left⟩
    refine ⟨place, mem_arrivals_push.mpr (Or.inl arrived), ?_⟩
    by_cases same : place = partition
    · subst same
      rw [update_self, ids, map_append, mem_append]
      rintro (inside | last)
      · exact left inside
      · rw [mem_singleton.mp last] at arrived
        exact fresh place arrived
    · rw [update_of_ne same]
      exact left
  sorted := by
    refine Pairwise.imp_of_mem ?_ lined.sorted
    intro earlier later first _ ordered place precedes
    by_cases same : place = partition
    · subst same
      rw [update_self] at precedes
      refine ordered place (precedes.of_concat ?_)
      rintro rfl
      rcases lined.gone earlier first with ⟨there, arrived, _⟩
      exact fresh there arrived
    · rw [update_of_ne same] at precedes
      exact ordered place precedes

/-- A new loop has nothing in its hands. -/
theorem Lined.join (partition : Fin settings.partitions) :
    Lined arrivals channels
      (consumers ++ [⟨partition, none, .selecting false⟩]) handed :=
  { lined with
    held := by
      intro consumer member parcel held
      rcases mem_append.mp member with before | last
      · exact lined.held consumer before parcel held
      · rw [mem_singleton.mp last] at held
        cases held }

/-- A loop goes on, with what it had in its hands or without it. -/
theorem Lined.turn
    {index : Nat} {old new : Consumer settings.partitions Value}
    (found : consumers[index]? = some old)
    (partition : new.partition = old.partition)
    (parcel : new.stage.parcel = none ∨ new.stage.parcel = old.stage.parcel) :
    Lined arrivals channels (consumers.set index new) handed :=
  { lined with
    held := by
      intro consumer member holding held
      rcases mem_or_eq_of_mem_set member with other | rfl
      · exact lined.held consumer other holding held
      · rcases parcel with none | same
        · rw [none] at held
          cases held
        · rw [partition]
          exact lined.held old (mem_of_getElem? found) holding
            (same.symm.trans held) }

/-- The only loop of a partition takes the oldest value of its channel. -/
theorem Lined.take {index : Nat} {context : Option Fault} {draining : Bool}
    {rest : List (Parcel Value)}
    (found : consumers[index]? =
      some ⟨partition, context, .selecting draining⟩)
    (alone : ∀ (position : Nat) (other : Consumer settings.partitions Value),
      consumers[position]? = some other → position ≠ index →
        other.partition = partition → other.stage.isReturned = true)
    (waiting : channels partition = parcel :: rest) :
    Lined arrivals (Function.update channels partition rest)
      (consumers.set index
        ⟨partition, context, .delivering draining parcel (.looping 1)⟩)
      handed where
  queued := by
    intro place
    by_cases same : place = partition
    · subst same
      rw [update_self]
      have suffix := lined.queued place
      rw [waiting] at suffix
      exact (suffix_cons parcel.id (ids rest)).trans suffix
    · rw [update_of_ne same]
      exact lined.queued place
  held := by
    intro consumer member holding held
    rcases mem_iff_getElem?.mp member with ⟨position, here⟩
    rcases of_set here with ⟨rfl, rfl⟩ | ⟨different, there⟩
    · cases held
      rcases lined.queued partition with ⟨earlier, split⟩
      refine ⟨earlier, ?_⟩
      rw [update_self, ← split, waiting]
      rfl
    · have elsewhere : consumer.partition ≠ partition := by
        intro same
        have returned := alone position consumer there different same
        rw [Stage.running_of_parcel held] at returned
        cases returned
      rw [update_of_ne elsewhere]
      exact lined.held consumer (mem_of_getElem? there) holding held
  gone := by
    intro other member
    rcases lined.gone other member with ⟨place, arrived, left⟩
    refine ⟨place, arrived, ?_⟩
    by_cases same : place = partition
    · subst same
      rw [update_self]
      rw [waiting] at left
      exact fun inside => left (mem_cons_of_mem _ inside)
    · rw [update_of_ne same]
      exact left
  sorted := lined.sorted

/-- A loop calls the handler with what it has in its hands. -/
theorem Lined.attempt
    (registered : Registered calls arrivals) (member : consumer ∈ consumers)
    (held : consumer.stage.parcel = some parcel) :
    Lined arrivals channels consumers (handed ++ [parcel]) where
  queued := lined.queued
  held := lined.held
  gone := forall_mem_concat lined.gone
    ⟨consumer.partition, lined.of_held registered member held⟩
  sorted := by
    rw [pairwise_append]
    refine ⟨lined.sorted, pairwise_singleton _ _, ?_⟩
    intro earlier before last equal
    rw [mem_singleton.mp equal]
    exact lined.not_precedes_held registered member held before

end Lined

end Lined

/-! ## Every step keeps the order -/

namespace Broker

/-- Arrivals, channels and handler calls agree. -/
structure Ordered (broker : Broker settings Value) : Prop where
  registered : Registered broker.bus.calls broker.arrivals
  lined : Lined broker.arrivals broker.bus.channels broker.bus.consumers
    broker.bus.handed

theorem ordered_new : (new settings Value).Ordered where
  registered := {
    known := by
      intro partition id member
      cases member
    complete := by
      intro id call found
      cases found
    nodup := fun _ => nodup_nil }
  lined := {
    queued := fun _ => suffix_refl []
    held := by
      intro consumer member
      cases member
    gone := by
      intro parcel member
      cases member
    sorted := Pairwise.nil }

section Steps

variable {broker after : Broker settings Value}

/-- A step that brings no value into a channel. -/
theorem Ordered.effect
    {action : Bus.Action settings Value} {bus : Bus settings Value}
    (ordered : broker.Ordered) (exclusive : Exclusive broker.bus)
    (effect : Effect action broker.bus bus)
    (other : ∀ id, action ≠ .push id) :
    Registered bus.calls broker.arrivals ∧
      Lined broker.arrivals bus.channels bus.consumers bus.handed := by
  rcases ordered with ⟨registered, lined⟩
  cases effect with
  | rests calls channels consumers handed =>
    rw [calls, channels, consumers, handed]
    exact ⟨registered, lined⟩
  | sends calls channels consumers handed =>
    rw [calls, channels, consumers, handed]
    exact ⟨registered.send _ _, lined⟩
  | moves found calls accepted _ channels consumers handed =>
    rw [calls, channels, consumers, handed]
    exact ⟨registered.move found accepted, lined⟩
  | pushes pushed found calls channels consumers handed =>
    exact absurd pushed (other _)
  | takes found waiting calls channels consumers handed =>
    rw [calls, channels, consumers, handed]
    refine ⟨registered, lined.take found ?_ waiting⟩
    intro position consumer here different same
    cases stage : consumer.stage.isReturned with
    | true => rfl
    | false =>
      exact absurd (exclusive _ _ _ _ here found stage rfl same) different
  | turns found consumers partition parcel _ calls channels handed =>
    rw [calls, channels, consumers, handed]
    exact ⟨registered, lined.turn found partition parcel⟩
  | attempts found consumers partition held calling calls channels handed =>
    rw [calls, channels, consumers, handed]
    have turned := lined.turn found partition
      (Or.inr (calling.trans held.symm))
    have bound := (List.getElem?_eq_some_iff.mp found).1
    exact ⟨registered, turned.attempt registered (mem_set bound _) calling⟩

/-- A push, with the call that arrives by it. -/
theorem Ordered.push {bus : Bus settings Value} (ordered : broker.Ordered)
    (step : broker.bus.push id = some bus) :
    Registered bus.calls (broker.arrive (.push id)) ∧
      Lined (broker.arrive (.push id)) bus.channels bus.consumers
        bus.handed := by
  rcases ordered with ⟨registered, lined⟩
  simp only [Bus.push] at step
  split at step
  · rename_i key value found
    split_ifs at step
    cases step
    simp only [arrive, found]
    exact ⟨registered.push found,
      lined.push fun place => registered.notMem found rfl place⟩
  · cases step

theorem Ordered.move
    {action : Bus.Action settings Value} (ordered : broker.Ordered)
    (owned : broker.Owned) (step : broker.move action = some after) :
    after.Ordered := by
  simp only [Broker.move] at step
  split at step
  · cases step
  · rename_i ordinary
    split at step
    · cases step
    · rename_i bus moved
      cases step
      by_cases pushes : ∃ id, action = .push id
      · rcases pushes with ⟨id, rfl⟩
        rcases ordered.push moved with ⟨registered, lined⟩
        exact ⟨registered, lined⟩
      · have other : ∀ id, action ≠ .push id :=
          fun id same => pushes ⟨id, same⟩
        have same : broker.arrive action = broker.arrivals := by
          cases action with
          | push id => exact absurd rfl (other id)
          | _ => rfl
        rcases ordered.effect owned.exclusive
          (step_effect (Bool.eq_false_iff.mpr ordinary) moved) other with
          ⟨registered, lined⟩
        rw [same]
        exact ⟨registered, lined⟩

theorem Ordered.step
    {action : Action settings Value} (ordered : broker.Ordered)
    (owned : broker.Owned) (step : broker.step action = some after) :
    after.Ordered := by
  cases action with
  | bus action => exact ordered.move owned step
  | runConsumerGroup | receive =>
    cases step
    exact ⟨ordered.registered, ordered.lined⟩
  | consume caller partition =>
    simp only [Broker.step, Broker.consume] at step
    (repeat' split at step) <;> cases step <;>
      exact ⟨ordered.registered, ordered.lined.join partition⟩
  | claim | finish | release =>
    simp only [Broker.step, Broker.claim, Broker.finish,
      Broker.release] at step
    (repeat' split at step) <;> cases step <;>
      exact ⟨ordered.registered, ordered.lined⟩

theorem ordered_of_reachable
    (reachable : (machine settings Value).Reachable broker) :
    broker.Ordered := by
  apply reachable.invariant
  · rintro state rfl
    exact ordered_new
  · intro before action later reached ordered step
    exact ordered.step (owned_of_reachable reached) step

/-- What has arrived stays where it is in the order. -/
theorem arrivals_step
    {action : Action settings Value} (step : broker.step action = some after)
    (partition : Fin settings.partitions) :
    broker.arrivals partition <+: after.arrivals partition := by
  cases action with
  | bus action =>
    simp only [Broker.step, Broker.move] at step
    split at step
    · cases step
    · split at step
      · cases step
      · cases step
        show broker.arrivals partition <+: broker.arrive action partition
        cases action with
        | push id =>
          cases found : broker.bus.calls[id]? with
          | none => simp only [arrive, found, prefix_refl]
          | some call =>
            simp only [arrive, found]
            by_cases same : partition = settings.partitionFor call.key
            · subst same
              rw [update_self]
              exact prefix_append _ _
            · rw [update_of_ne same]
        | _ => exact prefix_refl _
  | runConsumerGroup | receive =>
    cases step
    exact prefix_refl _
  | claim | consume | finish | release =>
    simp only [Broker.step, claim, consume, finish, release] at step
    (repeat' split at step) <;> cases step <;> exact prefix_refl _

theorem arrivals_run {actions : List (Action settings Value)}
    (run : (machine settings Value).run broker actions = some after)
    (partition : Fin settings.partitions) :
    broker.arrivals partition <+: after.arrivals partition := by
  induction actions generalizing broker with
  | nil =>
    cases run
    exact prefix_refl _
  | cons action rest induction =>
    simp only [Machine.run, Option.bind_eq_some_iff] at run
    rcases run with ⟨middle, first, remaining⟩
    exact (arrivals_step first partition).trans (induction remaining)

end Steps

end Broker

/-! ## Exclusive ownership and order -/

/--
Every handler call for the first value was made before those for the second
one, and none of them is still going on once the second one was handed out.
-/
structure Follows (first second : Nat) (bus : Bus settings Value) :
    Prop where
  logged : ∀ earlier later, bus.handed = earlier ++ later →
    (∃ parcel ∈ earlier, parcel.id = second) →
      ∀ parcel ∈ later, parcel.id ≠ first
  finished : (∃ parcel ∈ bus.handed, parcel.id = second) →
    ∀ consumer ∈ bus.consumers, ∀ parcel,
      consumer.stage.attempting = some parcel → parcel.id ≠ first

/--
No two consume loops run on one partition.  Where a call returned nil before
another one with its key started, all handler calls for the first value are
over before the first one for the second value begins, in every later state.
-/
theorem exclusive_and_ordered
    {broker : Broker settings Value}
    (reachable : (Broker.machine settings Value).Reachable broker) :
    Exclusive broker.bus ∧
      ∀ (first second : Nat) (key : String) (value : Value)
        (actions : List (Broker.Action settings Value))
        (after : Broker settings Value) (call : SendCall Value),
        broker.bus.calls[first]? = some ⟨key, value, .returned none⟩ →
          broker.bus.calls.length ≤ second →
            (Broker.machine settings Value).run broker actions = some after →
              after.bus.calls[second]? = some call → call.key = key →
                Follows first second after.bus := by
  refine ⟨(Broker.owned_of_reachable reachable).exclusive, ?_⟩
  intro first second key value actions after call returned later run found
    sameKey
  have before := Broker.ordered_of_reachable reachable
  have ordered := Broker.ordered_of_reachable (reachable.run run)
  let place := settings.partitionFor key
  have arrived : first ∈ broker.arrivals place :=
    before.registered.complete first _ returned rfl
  have absent : second ∉ broker.arrivals place := by
    intro member
    rcases before.registered.known place second member with ⟨_, here, _⟩
    have bound := (List.getElem?_eq_some_iff.mp here).1
    omega
  -- Once the second value has arrived, the first one stands before it.
  have precedes : ∀ parcel ∈ after.bus.handed, parcel.id = second →
      Precedes first second (after.arrivals place) := by
    intro parcel member same
    rcases ordered.lined.gone parcel member with ⟨partition, inside, _⟩
    rw [same] at inside
    rcases ordered.registered.known partition second inside with
      ⟨other, here, _, partitionOf⟩
    rw [found] at here
    cases here
    rw [sameKey] at partitionOf
    rcases Broker.arrivals_run run place with ⟨more, split⟩
    rw [← partitionOf, ← split] at inside
    rw [← split]
    apply Precedes.of_append arrived
    exact (mem_append.mp inside).resolve_left absent
  constructor
  · rintro earlier behind split ⟨parcel, member, same⟩ other inside equal
    have order := precedes parcel (by
      rw [split]
      exact mem_append_left _ member) same
    have sorted := ordered.lined.sorted
    rw [split, pairwise_append] at sorted
    have contrary := sorted.2.2 parcel member other inside place
    rw [same, equal] at contrary
    exact contrary order
  · rintro ⟨parcel, member, same⟩ consumer listed other attempting equal
    have order := precedes parcel member same
    have contrary := ordered.lined.not_precedes_held ordered.registered
      listed (Stage.parcel_of_attempting attempting) member place
    rw [same, equal] at contrary
    exact contrary order

/-! ### A run -/

def singleSettings : Settings where
  config := ⟨1, 2, 2⟩
  valid := by decide

/-- A caller consumes the only partition, and a first value is sent. -/
def firstActions : List (Broker.Action singleSettings Nat) :=
  [.receive, .claim 0, .consume 0 ⟨0, by decide⟩,
    .bus (.send "a" 10), .bus (.check 0), .bus (.enter 0), .bus (.push 0),
    .bus (.count 0), .bus (.leave 0)]

/-- A second value is sent; the handler refuses the first one once. -/
def laterActions : List (Broker.Action singleSettings Nat) :=
  [.bus (.send "a" 20), .bus (.check 1), .bus (.enter 1), .bus (.push 1),
    .bus (.receive 0), .bus (.deliver 0),
    .bus (.handle 0 (some (.sentinel "handler failed"))),
    .bus (.deliver 0), .bus (.deliver 0), .bus (.deliver 0),
    .bus (.handle 0 none), .bus (.deliver 0),
    .bus (.receive 0), .bus (.deliver 0)]

def firstBroker : Broker singleSettings Nat :=
  ((Broker.machine singleSettings Nat).run
    (Broker.new singleSettings Nat) firstActions).get (by decide +kernel)

def laterBroker : Broker singleSettings Nat :=
  ((Broker.machine singleSettings Nat).run firstBroker laterActions).get
    (by decide +kernel)

theorem exclusive_and_ordered_example :
    laterBroker.bus.handed = [⟨0, 10⟩, ⟨0, 10⟩, ⟨1, 20⟩] ∧
      Follows 0 1 laterBroker.bus := by
  have reachable : (Broker.machine singleSettings Nat).Reachable
      firstBroker :=
    (Machine.Reachable.start rfl).run (Option.some_get _).symm
  refine ⟨by decide +kernel, ?_⟩
  exact (exclusive_and_ordered reachable).2 0 1 "a" 10 laterActions
    laterBroker ⟨"a", 20, .counting⟩ (by decide +kernel) (by decide +kernel)
    (Option.some_get _).symm (by decide +kernel) rfl

end Ironclaw.Bus
