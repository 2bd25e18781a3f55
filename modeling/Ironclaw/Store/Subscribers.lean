import Ironclaw.Lib.Slots
import Ironclaw.Store.Watch

/-!
# Watches are safe and ordered

The lists of the store hold exactly the observers whose goroutine has not
returned, each under the key of its device, and their channels are open.  So a
change is offered to the observers of its device and to no others, and what an
observer received and has buffered is what it was offered, less the updates
that found its channel full, which are counted.
-/

namespace Ironclaw.Store

open Lib Domain List AList Slots Memory Metrics Watching

/-! ## Notification -/

/-- A channel that takes an update if it is meant and has room. -/
def Watcher.take (meant : Bool) (state : DeviceState) (watcher : Watcher) :
    Watcher :=
  if meant = true ∧ watcher.updates.length < watchBuffer then
    { watcher with updates := watcher.updates ++ [state] }
  else watcher

namespace Memory

/-- The channel of a subscriber has no room. -/
def isFull (memory : Memory) (id : Nat) : Bool :=
  watchBuffer ≤ (memory.buffered id).length

/-- What a notification does where all channels meant are open. -/
structure Notified
    (ids : List Nat) (state : DeviceState) (memory after : Memory) :
    Prop where
  panicked : after.panicked = memory.panicked
  devices : after.devices = memory.devices
  watchers : after.watchers = memory.watchers
  size : after.subscribers.length = memory.subscribers.length
  subscribers : ∀ id, after.subscribers[id]? =
    memory.subscribers[id]?.map (Watcher.take (id ∈ ids) state)
  counted : after.metrics.value metricWatchDropped =
    memory.metrics.value metricWatchDropped +
      Int64.ofNat (ids.countP memory.isFull)

section Notifying

variable {memory : Memory} {state : DeviceState} {id : Nat}
variable {watcher : Watcher} {rest : List Nat}

section Found

variable (found : memory.subscribers[id]? = some watcher)
include found

theorem buffered_of_found : memory.buffered id = watcher.updates := by
  rw [buffered, found]

theorem notified_room
    (room : watcher.updates.length < watchBuffer) (fresh : id ∉ rest)
    {after : Memory}
    (notified : Notified rest state
      { memory with
        subscribers := memory.subscribers.set id
          { watcher with updates := watcher.updates ++ [state] } }
      after) :
    Notified (id :: rest) state memory after :=
  { notified with
    size := notified.size.trans length_set
    subscribers := by
      intro other
      rw [notified.subscribers]
      simp only [getElem?_set _ found]
      by_cases same : id = other
      · subst same
        simp [found, Watcher.take, fresh, room]
      · have different : other ≠ id := fun equal => same equal.symm
        simp [same, different]
    counted := by
      have notFull : memory.isFull id = false := by
        rw [isFull, buffered_of_found found]
        exact decide_eq_false (not_le.mpr room)
      rw [countP_cons_of_neg (by simp [notFull])]
      refine notified.counted.trans ?_
      congr 2
      apply countP_congr
      intro other member
      have different : id ≠ other := by
        rintro rfl
        exact fresh member
      have same : buffered { memory with
          subscribers := memory.subscribers.set id
            { watcher with updates := watcher.updates ++ [state] } }
          other = memory.buffered other := by
        simp only [buffered, getElem?_set _ found, if_neg different]
      simp only [isFull, same] }

theorem notified_full
    (full : ¬watcher.updates.length < watchBuffer) {after : Memory}
    (notified : Notified rest state
      (memory.increment metricWatchDropped 1) after) :
    Notified (id :: rest) state memory after :=
  { notified with
    subscribers := by
      intro other
      rw [notified.subscribers]
      by_cases same : other = id
      · subst same
        simp [increment, found, Watcher.take, full]
      · simp [increment, same]
    counted := by
      have isFull : memory.isFull id = true := by
        rw [isFull, buffered_of_found found]
        exact decide_eq_true (not_lt.mp full)
      rw [countP_cons_of_pos isFull]
      refine notified.counted.trans ?_
      rw [increment, value_increment_self, Word.ofNat_succ,
        add_assoc, add_comm 1]
      rfl }

end Found

/-- The rule for `notify`: every channel that is meant takes the update. -/
theorem notified_notifyEach
    (state : DeviceState) {ids : List Nat} (distinct : ids.Nodup)
    {memory : Memory}
    (opened : ∀ id ∈ ids, ∃ watcher,
      memory.subscribers[id]? = some watcher ∧ watcher.closed = false) :
    Notified ids state memory (memory.notifyEach state ids) := by
  induction ids generalizing memory with
  | nil =>
    refine ⟨rfl, rfl, rfl, rfl, ?_, by simp [notifyEach]⟩
    intro id
    have unmeant : Watcher.take (id ∈ []) state = fun watcher =>
        watcher := by
      funext watcher
      simp [Watcher.take]
    rw [unmeant]
    simp [notifyEach]
  | cons id rest induction =>
    obtain ⟨fresh, others⟩ := nodup_cons.mp distinct
    obtain ⟨watcher, found, isOpen⟩ := opened id mem_cons_self
    simp only [notifyEach, found]
    rw [if_neg (by rw [isOpen]; exact Bool.false_ne_true)]
    split
    · rename_i room
      refine notified_room found room fresh (induction others ?_)
      intro other member
      have different : id ≠ other := by
        rintro rfl
        exact fresh member
      simp only [getElem?_set _ found, if_neg different]
      exact opened other (mem_cons_of_mem _ member)
    · rename_i full
      refine notified_full found full (induction others ?_)
      intro other member
      exact opened other (mem_cons_of_mem _ member)

end Notifying

end Memory

/-! ## The invariant -/

/-- What an observer and the channel of its subscriber have in common. -/
structure Attends (observer : Observer) (watcher : Watcher) : Prop where
  plain : Plain observer.userID
  closed : watcher.closed = observer.ended
  closes : observer.closes = if observer.ended then 1 else 0
  order : (observer.received ++ watcher.updates).Sublist observer.offered
  own : ∀ state ∈ observer.offered,
    state.userID = observer.userID ∧ state.deviceID = observer.deviceID

/-- The updates that an observer was offered and did not get. -/
def missed (memory : Memory) (id : Nat) (observer : Observer) : Nat :=
  observer.offered.length -
    (observer.received.length + (memory.buffered id).length)

/-- The updates missing over all observers. -/
def Watching.missing (watching : Watching) : Nat :=
  Slots.total (missed watching.memory) watching.observers

/-- An observer that is registered under a key. -/
def Observer.listens (key : String) (observer : Observer) : Prop :=
  observer.ended = false ∧ deviceKey observer.userID observer.deviceID = key

/-- A record is kept under the key of the device that it names. -/
def DeviceRecord.FiledAs (key : String) (record : DeviceRecord) : Prop :=
  Plain record.state.userID ∧
    key = deviceKey record.state.userID record.state.deviceID

/-- The invariant of the subscribers. -/
structure Watched (memory : Memory) (observers : List Observer) :
    Prop where
  safe : memory.panicked = false
  numbered : memory.subscribers.length = observers.length
  attends : ∀ (id : Nat) (observer : Observer),
    observers[id]? = some observer →
      ∃ watcher, memory.subscribers[id]? = some watcher ∧
        Attends observer watcher
  distinct : ∀ key, (memory.subscribersOf key).Nodup
  registered : ∀ key id, id ∈ memory.subscribersOf key ↔
    ∃ observer, observers[id]? = some observer ∧ observer.listens key
  records : ∀ key record, memory.devices.lookup key = some record →
    record.FiledAs key
  counted : memory.metrics.value metricWatchDropped =
    Int64.ofNat (Slots.total (missed memory) observers)

theorem watched_new : Watched new [] where
  safe := rfl
  numbered := rfl
  attends := nofun
  distinct _ := nodup_nil
  registered key id := by
    constructor
    · exact nofun
    · rintro ⟨observer, found, -⟩
      cases found
  records := nofun
  counted := rfl

section Steps

variable {memory after : Memory} {observers : List Observer}
variable {id : Nat} {observer : Observer} {watcher : Watcher}
variable {userID : String} {change : Change} {record : DeviceRecord}
variable {window : AggregateWindow}

/-! ### The lists of subscribers -/

theorem subscribersOf_unlist
    (key other : String) (id : Nat) (memory : Memory) :
    (memory.unlist key id).subscribersOf other = if other = key then
        (memory.subscribersOf key).filter fun existing => existing ≠ id
      else memory.subscribersOf other := by
  rw [subscribersOf, unlist]
  simp only
  by_cases same : other = key
  · subst same
    rw [if_pos rfl]
    split
    · rename_i empty
      rw [lookup_erase]
      exact empty.symm
    · rw [lookup_insert]
      rfl
  · rw [if_neg same]
    split
    · rw [lookup_erase_ne same]
      rfl
    · rw [lookup_insert_ne same]
      rfl

theorem subscribersOf_unlist_sublist
    (key other : String) (id : Nat) (memory : Memory) :
    ((memory.unlist key id).subscribersOf other).Sublist
      (memory.subscribersOf other) := by
  rw [subscribersOf_unlist]
  split
  · rename_i same
    rw [same]
    exact filter_sublist
  · exact Sublist.refl _

theorem mem_subscribersOf_unlist
    {key other : String} {id existing : Nat} {memory : Memory} :
    existing ∈ (memory.unlist key id).subscribersOf other ↔
      existing ∈ memory.subscribersOf other ∧
        (other = key → existing ≠ id) := by
  rw [subscribersOf_unlist]
  split
  · rename_i same
    rw [mem_filter, same]
    simp
  · next different => simp [different]

theorem closeUpdates_of_open
    (present : memory.subscribers[id]? = some watcher)
    (isOpen : watcher.closed = false) :
    memory.closeUpdates id =
      { memory with
        subscribers := memory.subscribers.set id
          { watcher with closed := true } } := by
  rw [closeUpdates, present]
  simp only
  rw [if_neg (by rw [isOpen]; exact Bool.false_ne_true)]

/-- The store with one more subscriber under a key. -/
def Memory.enlist (key : String) (memory : Memory) : Memory :=
  { memory with
    watchers := memory.watchers.insert key
      (memory.subscribersOf key ++ [memory.subscribers.length])
    subscribers := memory.subscribers ++ [⟨[], false⟩] }

theorem subscribersOf_enlist (key other : String) (memory : Memory) :
    (memory.enlist key).subscribersOf other = if other = key then
        memory.subscribersOf key ++ [memory.subscribers.length]
      else memory.subscribersOf other := by
  rw [subscribersOf, enlist]
  by_cases same : other = key
  · rw [if_pos same, same, lookup_insert]
    rfl
  · rw [if_neg same, lookup_insert_ne same]
    rfl

/-! ### A change -/

theorem offer_of_listens
    (listens : observer.listens (deviceKey change.userID change.deviceID))
    (plain : Plain observer.userID) (changePlain : Plain change.userID) :
    observer.offer change =
      { observer with offered := observer.offered ++ [change.state] } := by
  have names := deviceKey_injective plain changePlain listens.2
  rw [Observer.offer, if_pos ⟨listens.1, names.1, names.2⟩]

theorem offer_of_not_listens
    (deaf : ¬observer.listens (deviceKey change.userID change.deviceID)) :
    observer.offer change = observer := by
  rw [Observer.offer, if_neg]
  rintro ⟨running, user, device⟩
  exact deaf ⟨running, by rw [user, device]⟩

theorem listens_offer (key : String) (change : Change) :
    (observer.offer change).listens key ↔ observer.listens key := by
  rw [Observer.offer]
  split <;> rfl

/-- What a change adds to an observer and to its channel. -/
structure Offered
    (change : Change) (meant : Bool) (observer : Observer)
    (watcher : Watcher) : Prop where
  attends : Attends (observer.offer change)
    (watcher.take meant change.state)
  missed : (observer.offer change).offered.length -
      ((observer.offer change).received.length +
        (watcher.take meant change.state).updates.length) =
    observer.offered.length -
        (observer.received.length + watcher.updates.length) +
      if meant = true ∧ watchBuffer ≤ watcher.updates.length then 1
      else 0

theorem Attends.offered
    (attends : Attends observer watcher) (plain : Plain change.userID)
    (own : change.state.userID = change.userID ∧
      change.state.deviceID = change.deviceID)
    {meant : Bool}
    (means : meant = true ↔ observer.listens
      (deviceKey change.userID change.deviceID)) :
    Offered change meant observer watcher := by
  have shorter := attends.order.length_le
  rw [length_append] at shorter
  cases meant with
  | false =>
    have same := offer_of_not_listens fun listens =>
      Bool.noConfusion (means.mpr listens)
    have kept : watcher.take false change.state = watcher := by
      simp [Watcher.take]
    constructor
    · rw [same, kept]
      exact attends
    · rw [same, kept]
      simp
  | true =>
    have listens := means.mp rfl
    have names := deviceKey_injective attends.plain plain listens.2
    have states : ∀ state ∈ observer.offered ++ [change.state],
        state.userID = observer.userID ∧
          state.deviceID = observer.deviceID := by
      refine forall_mem_concat attends.own ?_
      rw [names.1, names.2]
      exact own
    have grown := offer_of_listens listens attends.plain plain
    by_cases room : watcher.updates.length < watchBuffer
    · have taken : watcher.take true change.state =
          { watcher with
            updates := watcher.updates ++ [change.state] } := by
        simp [Watcher.take, room]
      constructor
      · rw [grown, taken]
        refine { attends with order := ?_, own := states }
        rw [← append_assoc]
        exact attends.order.append (Sublist.refl _)
      · rw [grown, taken, if_neg fun full => absurd room (not_lt.mpr full.2)]
        simp only [length_append, length_singleton]
        omega
    · have kept : watcher.take true change.state = watcher := by
        simp [Watcher.take, room]
      constructor
      · rw [grown, kept]
        refine { attends with order := ?_, own := states }
        exact attends.order.trans (sublist_append_left _ _)
      · rw [grown, kept, if_pos ⟨rfl, not_lt.mp room⟩]
        simp only [length_append, length_singleton]
        omega

theorem DeviceRecord.FiledAs.names
    {deviceID : String} (filed : record.FiledAs (deviceKey userID deviceID))
    (plain : Plain userID) :
    record.state.userID = userID ∧ record.state.deviceID = deviceID := by
  have same := deviceKey_injective plain filed.1 filed.2
  exact ⟨same.1.symm, same.2.symm⟩

theorem filed_insert {devices : GoMap String DeviceRecord} {key : String}
    (filed : ∀ key record, devices.lookup key = some record →
      record.FiledAs key)
    (new : record.FiledAs key) :
    ∀ other found, (devices.insert key record).lookup other =
      some found → found.FiledAs other := by
  intro other found present
  rcases GoMap.of_lookup_insert present with ⟨rfl, ⟨⟩⟩ | ⟨_, before⟩
  · exact new
  · exact filed other found before

theorem applied_of_new
    (new : window.identity ∉ (memory.recordFor window).2.applied) :
    Watching.applied none window memory =
      some ⟨window.key.userID, window.key.deviceID,
        ((memory.recordFor window).2.merge window).state⟩ := by
  have stored : (memory.applyWindow none window).1.devices.lookup
      (deviceKey window.key.userID window.key.deviceID) =
        some ((memory.recordFor window).2.merge window) := by
    refine (devices_applyWindow_self window memory).trans ?_
    rw [← recordFor_snd, DeviceRecord.receive, if_neg new]
  rw [Watching.applied, if_pos ⟨rfl, new⟩, changeTo, stored]
  rfl

/-! ### Steps of the store -/

section Watched

variable (watched : Watched memory observers)
include watched

theorem Watched.opened (key : String) :
    ∀ id ∈ memory.subscribersOf key, ∃ watcher,
      memory.subscribers[id]? = some watcher ∧ watcher.closed = false := by
  intro id member
  obtain ⟨observer, found, listens⟩ := (watched.registered key id).mp member
  obtain ⟨watcher, present, attends⟩ := watched.attends id observer found
  exact ⟨watcher, present, attends.closed.trans listens.1⟩

section Observed

variable (found : observers[id]? = some observer)
include found

/-- An observer goes on, and so may its channel. -/
theorem Watched.exchange {new : Observer}
    (subscribers : ∀ other, after.subscribers[other]? =
      if id = other then some watcher else memory.subscribers[other]?)
    (size : after.subscribers.length = memory.subscribers.length)
    (panicked : after.panicked = memory.panicked)
    (metrics : after.metrics = memory.metrics)
    (devices : after.devices = memory.devices)
    (distinct : ∀ key, (after.subscribersOf key).Nodup)
    (registered : ∀ key other, other ∈ after.subscribersOf key ↔
      (id = other ∧ new.listens key ∨
        id ≠ other ∧ other ∈ memory.subscribersOf key))
    (attends : Attends new watcher)
    (same : new.offered.length -
        (new.received.length + watcher.updates.length) =
      missed memory id observer) : Watched after (observers.set id new) where
  safe := panicked.trans watched.safe
  numbered := by
    rw [size, watched.numbered, length_set]
  attends := by
    intro other slot present
    rw [subscribers]
    rcases of_set present with ⟨rfl, rfl⟩ | ⟨different, before⟩
    · exact ⟨watcher, if_pos rfl, attends⟩
    · rw [if_neg (Ne.symm different)]
      exact watched.attends other slot before
  distinct := distinct
  registered := by
    intro key other
    rw [registered, watched.registered, getElem?_set new found]
    by_cases equal : id = other
    · simp [equal]
    · simp [equal]
  records := by
    rw [devices]
    exact watched.records
  counted := by
    have buffered : ∀ other, id ≠ other →
        after.buffered other = memory.buffered other := by
      intro other different
      rw [Memory.buffered, subscribers, if_neg different, Memory.buffered]
    have here : after.buffered id = watcher.updates := by
      rw [Memory.buffered, subscribers, if_pos rfl]
    have total : total (missed after) (observers.set id new) =
        total (missed memory) observers := by
      apply total_exchange _ found
      · rw [missed, here]
        exact same
      · intro other slot _ different
        rw [missed, buffered other different, missed]
    rw [metrics, total]
    exact watched.counted

theorem Watched.listed_iff
    {new : Observer} (same : ∀ key, new.listens key ↔ observer.listens key)
    (key : String) (other : Nat) :
    other ∈ memory.subscribersOf key ↔ (id = other ∧ new.listens key ∨
        id ≠ other ∧ other ∈ memory.subscribersOf key) := by
  by_cases equal : id = other
  · subst equal
    rw [watched.registered, found, same]
    simp
  · simp [equal]

theorem Watched.cancel : Watched memory
      (observers.set id { observer with cancelled := true }) := by
  obtain ⟨watcher, present, attends⟩ := watched.attends id observer found
  have subscribers : ∀ other, memory.subscribers[other]? =
      if id = other then some watcher
      else memory.subscribers[other]? := by
    intro other
    split
    · next same => rw [← same, present]
    · rfl
  refine watched.exchange found subscribers rfl rfl rfl rfl
    watched.distinct (watched.listed_iff found fun _ => Iff.rfl)
    { attends with } ?_
  rw [missed, buffered_of_found present]

theorem Watched.read {state : DeviceState}
    (step : memory.readUpdate id = some (state, after)) :
    Watched after
      (observers.set id
        { observer with received := observer.received ++ [state] }) := by
  obtain ⟨watcher, present, attends⟩ := watched.attends id observer found
  rw [readUpdate, present] at step
  split at step
  · rename_i first rest closed same
    cases same
    cases step
    refine watched.exchange found (getElem?_set _ present)
      length_set rfl rfl rfl watched.distinct
      (watched.listed_iff found fun _ => Iff.rfl)
      { attends with order := ?_ } ?_
    · rw [append_assoc]
      exact attends.order
    · simp only [missed, buffered_of_found present,
        length_append, length_cons, length_nil]
      omega
  · cases step

theorem Watched.unwatch (running : observer.ended = false) :
    Watched (memory.unwatch (deviceKey observer.userID observer.deviceID) id)
      (observers.set id
        { observer with
          ended := true
          closes := observer.closes + 1 }) := by
  obtain ⟨watcher, present, attends⟩ := watched.attends id observer found
  have isOpen := attends.closed.trans running
  have still : (memory.unlist
      (deviceKey observer.userID observer.deviceID) id).subscribers[id]? =
        some watcher := present
  rw [Memory.unwatch, closeUpdates_of_open still isOpen]
  refine watched.exchange found (getElem?_set _ present)
    length_set rfl rfl rfl ?_ ?_ ?_ ?_
  · intro key
    exact (watched.distinct key).sublist
      (subscribersOf_unlist_sublist _ key id memory)
  · intro key other
    have ended : ¬Observer.listens key
        { observer with ended := true, closes := observer.closes + 1 } :=
      fun listens => Bool.noConfusion listens.1
    refine mem_subscribersOf_unlist.trans ?_
    constructor
    · rintro ⟨member, kept⟩
      refine Or.inr ⟨?_, member⟩
      rintro rfl
      -- The observer is listed under the key of its own device only.
      obtain ⟨listener, present, listens⟩ :=
        (watched.registered key id).mp member
      rw [found] at present
      cases present
      exact kept listens.2.symm rfl
    · rintro (⟨_, listens⟩ | ⟨different, member⟩)
      · exact absurd listens ended
      · exact ⟨member, fun _ => Ne.symm different⟩
  · exact { attends with
      closed := rfl
      closes := by simp [attends.closes, running] }
  · rw [missed, buffered_of_found present]

/-- The goroutine of a watch closes a channel that is open. -/
theorem Watched.closes (running : observer.ended = false) {key : String} :
    Watching.isClosed id (memory.unwatch key id) = true ∧
      isClosed id memory = false := by
  obtain ⟨watcher, present, attends⟩ := watched.attends id observer found
  have isOpen := attends.closed.trans running
  have still : (memory.unlist key id).subscribers[id]? =
      some watcher := present
  rw [Memory.unwatch, closeUpdates_of_open still isOpen]
  constructor
  · rw [isClosed]
    simp only [set_self _ still]
  · rw [isClosed, present]
    exact isOpen

end Observed

/-- A subscriber of a device is registered. -/
theorem Watched.watch {deviceID : String} (plain : Plain userID) :
    Watched (memory.enlist (deviceKey userID deviceID))
      (observers ++ [⟨userID, deviceID, false, false, 0, [], []⟩]) := by
  have outside : ∀ key, memory.subscribers.length ∉
      memory.subscribersOf key := by
    intro key member
    obtain ⟨observer, found, -⟩ := (watched.registered key _).mp member
    have inside := (List.getElem?_eq_some_iff.mp found).1
    exact absurd inside (by rw [watched.numbered]; exact lt_irrefl _)
  refine ⟨watched.safe, ?_, ?_, ?_, ?_, watched.records, ?_⟩
  · rw [enlist, length_append, length_append, watched.numbered]
    rfl
  · intro id observer present
    rcases concat_iff.mp present with old | ⟨rfl, rfl⟩
    · obtain ⟨watcher, known, attends⟩ := watched.attends id observer old
      exact ⟨watcher, concat_iff.mpr (.inl known), attends⟩
    · refine ⟨⟨[], false⟩, ?_, plain, rfl, rfl, Sublist.refl _, nofun⟩
      rw [← watched.numbered]
      exact List.getElem?_concat_length
  · intro key
    rw [subscribersOf_enlist]
    split
    · refine (watched.distinct _).append (nodup_singleton _) ?_
      intro id member single
      rw [mem_singleton.mp single] at member
      exact outside _ member
    · exact watched.distinct key
  · intro key id
    rw [subscribersOf_enlist, watched.numbered]
    simp only [concat_iff, or_and_right, exists_or,
      ← watched.registered key id]
    split
    · rename_i same
      simp [same, Observer.listens]
    · rename_i different
      simp [Ne.symm different, Observer.listens]
  · have nothing : missed (memory.enlist (deviceKey userID deviceID))
        observers.length
        ⟨userID, deviceID, false, false, 0, [], []⟩ = 0 :=
      Nat.zero_sub _
    rw [total_append, nothing, add_zero]
    refine watched.counted.trans (congrArg Int64.ofNat ?_)
    apply total_congr
    intro id observer found
    obtain ⟨watcher, known, -⟩ := watched.attends id observer found
    rw [missed, missed, buffered_of_found known,
      buffered_of_found (concat_iff.mpr (.inl known))]

theorem Watched.notify (plain : Plain change.userID)
    (own : change.state.userID = change.userID ∧
      change.state.deviceID = change.deviceID) :
    Watched
      (memory.notify (deviceKey change.userID change.deviceID) change.state)
      (observers.map (Observer.offer change)) := by
  let key := deviceKey change.userID change.deviceID
  have notified : Memory.Notified (memory.subscribersOf key)
      change.state memory (memory.notify key change.state) :=
    notified_notifyEach change.state (watched.distinct key)
      (watched.opened key)
  have offered : ∀ id observer watcher, observers[id]? = some observer →
      memory.subscribers[id]? = some watcher →
        Offered change (id ∈ memory.subscribersOf key) observer
          watcher := by
    intro id observer watcher found present
    obtain ⟨other, known, attends⟩ := watched.attends id observer found
    rw [present] at known
    cases known
    refine attends.offered plain own ?_
    rw [decide_eq_true_iff, watched.registered, found]
    simp [key]
  have lists : ∀ other, (memory.notify key change.state).subscribersOf
      other = memory.subscribersOf other := by
    intro other
    rw [subscribersOf, notified.watchers, subscribersOf]
  refine ⟨notified.panicked.trans watched.safe, ?_, ?_, ?_, ?_, ?_, ?_⟩
  · rw [notified.size, watched.numbered, length_map]
  · intro id slot present
    rw [List.getElem?_map] at present
    obtain ⟨observer, found, rfl⟩ := Option.map_eq_some_iff.mp present
    obtain ⟨watcher, known, -⟩ := watched.attends id observer found
    refine ⟨_, ?_, (offered id observer watcher found known).attends⟩
    rw [notified.subscribers, known]
    rfl
  · intro other
    rw [lists]
    exact watched.distinct other
  · intro other id
    rw [lists, watched.registered, List.getElem?_map]
    constructor
    · rintro ⟨observer, found, listens⟩
      refine ⟨observer.offer change, ?_,
        (listens_offer other change).mpr listens⟩
      rw [found]
      rfl
    · rintro ⟨slot, present, listens⟩
      obtain ⟨observer, found, rfl⟩ := Option.map_eq_some_iff.mp present
      exact ⟨observer, found, (listens_offer other change).mp listens⟩
  · rw [notified.devices]
    exact watched.records
  · rw [notified.counted, watched.counted, ← Int64.ofNat_add]
    congr 1
    rw [total_map, countP_eq_length_filter]
    symm
    apply total_add_length ((watched.distinct key).filter _)
    · intro id member
      obtain ⟨observer, found, -⟩ := (watched.registered key id).mp
        (mem_of_mem_filter member)
      exact (List.getElem?_eq_some_iff.mp found).1
    · intro id observer found
      obtain ⟨watcher, known, -⟩ := watched.attends id observer found
      have held := (offered id observer watcher found known).missed
      have before := buffered_of_found known
      have after : (memory.notify key change.state).buffered id =
          (watcher.take (id ∈ memory.subscribersOf key)
            change.state).updates := by
        apply buffered_of_found
        rw [notified.subscribers, known]
        rfl
      rw [missed, after, missed, before, held]
      congr 2
      rw [mem_filter, isFull, before]
      simp

/-- Records and other metrics may change. -/
theorem Watched.update (panicked : after.panicked = memory.panicked)
    (watchers : after.watchers = memory.watchers)
    (subscribers : after.subscribers = memory.subscribers)
    (records : ∀ key record, after.devices.lookup key = some record →
      record.FiledAs key)
    (metrics : after.metrics.value metricWatchDropped =
      memory.metrics.value metricWatchDropped) : Watched after observers where
  safe := panicked.trans watched.safe
  numbered := by
    rw [subscribers]
    exact watched.numbered
  attends := by
    rw [subscribers]
    exact watched.attends
  distinct key := by
    rw [subscribersOf, watchers]
    exact watched.distinct key
  registered key id := by
    rw [subscribersOf, watchers]
    exact watched.registered key id
  records := records
  counted := by
    rw [metrics, watched.counted]
    congr 1
    apply total_congr
    intro id observer _
    rw [missed, missed, buffered, buffered, subscribers]

/-- A record is stored, and the change is offered. -/
theorem Watched.store {deviceID : String} (plain : Plain userID)
    (filed : record.FiledAs (deviceKey userID deviceID)) {metrics : Metrics}
    (same : metrics.value metricWatchDropped =
      memory.metrics.value metricWatchDropped) :
    Watched
      (Memory.notify (deviceKey userID deviceID) record.state
        { memory with
          devices := memory.devices.insert (deviceKey userID deviceID) record
          metrics := metrics })
      (observers.map (Observer.offer ⟨userID, deviceID, record.state⟩)) := by
  have stored : Watched
      { memory with
        devices := memory.devices.insert (deviceKey userID deviceID) record
        metrics := metrics } observers :=
    watched.update rfl rfl rfl (filed_insert watched.records filed) same
  exact @Watched.notify _ _ ⟨userID, deviceID, record.state⟩ stored
    plain (filed.names plain)

theorem Watched.recordFor (plain : Plain window.key.userID) :
    Watched (memory.recordFor window).1 observers := by
  rw [Memory.recordFor]
  split
  · exact watched
  · exact watched.update rfl rfl rfl
      (filed_insert watched.records ⟨plain, rfl⟩) rfl

theorem Watched.apply
    (context : Option Fault) (plain : Plain window.key.userID) :
    Watched (memory.applyWindow context window).1
      (Watching.observe (Watching.applied context window memory)
        observers) := by
  cases context with
  | some fault =>
    rw [Watching.applied, if_neg fun live => nomatch live.1]
    exact watched
  | none =>
    have created := watched.recordFor plain
    have filed : (memory.recordFor window).2.FiledAs (keyOf window) :=
      created.records _ _ (devices_recordFor_self window memory)
    by_cases duplicate : window.identity ∈ (memory.recordFor window).2.applied
    · rw [Watching.applied, if_neg fun new => new.2 duplicate,
        applyWindow]
      simp only
      rw [if_pos duplicate]
      exact created.update rfl rfl rfl created.records
        (value_increment_of_ne _ _ (by decide))
    · rw [applied_of_new duplicate, applyWindow]
      simp only
      rw [if_neg duplicate]
      have merged : ((memory.recordFor window).2.merge window).FiledAs
          (keyOf window) := by
        have label := label_merge (memory.recordFor window).2 window
        simp only [DeviceRecord.label, Prod.mk.injEq] at label
        rw [DeviceRecord.FiledAs, label.1, label.2.1]
        exact filed
      refine created.store plain merged ?_
      rw [value_increment_of_ne _ _ (by decide),
        value_increment_of_ne _ _ (by decide),
        value_increment_of_ne _ _ (by decide)]

theorem Watched.reset
    (context : Option Fault) (deviceID : String) (plain : Plain userID) :
    Watched (memory.resetDevice context userID deviceID).1
      (Watching.observe
        (wiped context userID deviceID memory) observers) := by
  cases context with
  | some fault => exact watched
  | none =>
    have stored := devices_resetDevice_self userID deviceID memory
    rw [wiped, if_pos rfl, changeTo, stored, resetDevice]
    simp only
    cases known : memory.devices.lookup (deviceKey userID deviceID) with
    | none => exact watched
    | some record =>
      have filed := watched.records _ _ known
      exact @Watched.store _ _ _ record.reset watched _ plain filed _
        (value_increment_of_ne _ _ (by decide))

end Watched

/-! ### Runs -/

theorem Watched.step {watching next : Watching} {action : WatchAction}
    (watched : Watched watching.memory watching.observers)
    (plain : action.Plain) (step : watching.step action = some next) :
    Watched next.memory next.observers := by
  cases action with
  | watch context userID deviceID =>
    cases step
    cases context with
    | some fault => exact watched
    | none =>
      by_cases unnamed : userID = "" ∨ deviceID = ""
      · rw [Watching.watch, watchDevice, if_pos unnamed]
        exact watched
      · rw [Watching.watch, watchDevice, if_neg unnamed]
        exact watched.watch plain
  | cancel id =>
    simp only [Watching.step, Watching.cancel] at step
    split at step
    · rename_i observer found
      cases step
      exact watched.cancel found
    · cases step
  | unwatch id =>
    simp only [Watching.step, Watching.unwatch] at step
    split at step
    · rename_i observer found
      split at step
      · rename_i running
        rw [if_pos (watched.closes found running.2)] at step
        cases step
        exact watched.unwatch found running.2
      · cases step
    · cases step
  | apply context window =>
    cases step
    exact watched.apply context plain
  | reset context userID deviceID =>
    cases step
    exact watched.reset context deviceID plain
  | read id =>
    simp only [Watching.step, Watching.read] at step
    split at step
    · rename_i observer state memory found received
      cases step
      exact watched.read found received
    · cases step

theorem watched_of_reachable {watching : Watching}
    (reachable : watchMachine.ReachableUnder
      (fun _ action => action.Plain) watching) :
    Watched watching.memory watching.observers := by
  apply reachable.invariant
  · rintro watching rfl
    exact watched_new
  · intro before action next _ watched plain step
    exact watched.step plain step

end Steps

/-! ## The property -/

/-- What is promised to the observer of a channel. -/
structure WatchKept (observer : Observer) (watcher : Watcher) : Prop where
  /-- The channel is closed by the goroutine of its watch, once. -/
  closedOnce : watcher.closed = observer.ended ∧
    observer.closes = if observer.ended then 1 else 0
  own : ∀ state ∈ observer.received ++ watcher.updates,
    state.userID = observer.userID ∧ state.deviceID = observer.deviceID
  order : (observer.received ++ watcher.updates).Sublist observer.offered

/--
With user ids free of the closing brace, no update is sent on a closed
channel, every channel is closed exactly once, when its watch ends, and an
observer gets states of its own device only, in the order in which they were
offered.  The updates that observers were offered and did not get are counted:
modulo `2^64`, and exactly below `2^63` of them.
-/
theorem watches_safe_and_ordered
    {watching : Watching}
    (reachable : watchMachine.ReachableUnder
      (fun _ action => action.Plain) watching) :
    watching.memory.panicked = false ∧ (∀ (id : Nat) (observer : Observer),
        watching.observers[id]? = some observer →
          ∃ watcher, watching.memory.subscribers[id]? = some watcher ∧
            WatchKept observer watcher) ∧
      watching.memory.metrics.value metricWatchDropped =
        Int64.ofNat watching.missing ∧
      (watching.missing < 2 ^ 63 →
        (watching.memory.metrics.value metricWatchDropped).toInt =
          watching.missing) := by
  have watched := watched_of_reachable reachable
  refine ⟨watched.safe, ?_, watched.counted, ?_⟩
  · intro id observer found
    obtain ⟨watcher, present, attends⟩ := watched.attends id observer found
    refine ⟨watcher, present, ⟨attends.closed, attends.closes⟩, ?_,
      attends.order⟩
    intro state member
    exact attends.own state (attends.order.subset member)
  · intro few
    rw [watched.counted, Watching.missing]
    exact Int64.toInt_ofNat_of_lt few

/-! ### One watch -/

def watchedWindow : AggregateWindow where
  key := ⟨"user-1", "device-1", 7, "pod-a"⟩
  windowID := 1
  sequence := 1
  windowStart := ⟨0⟩
  windowEnd := ⟨10⟩
  count := 1
  errorCount := 0
  bytes := 64
  p95Nanos := 5
  p99Nanos := 5
  maxNanos := 5

/-- Whether the user ids of a call are plain. -/
def plainAction (_ : Watching) : WatchAction → Bool
  | .watch _ userID _ | .reset _ userID _ => Plain userID
  | .apply _ window => Plain window.key.userID
  | _ => true

theorem plain_of_plainAction (watching : Watching) (action : WatchAction)
    (checked : plainAction watching action = true) : action.Plain := by
  cases action with
  | watch | reset | apply =>
    simpa only [plainAction, decide_eq_true_eq, WatchAction.Plain]
      using checked
  | _ => trivial

/-- A watch sees an emission and more resets than its channel holds. -/
def watchedActions : List WatchAction :=
  .watch none "user-1" "device-1" :: .apply none watchedWindow ::
    List.replicate watchBuffer (.reset none "user-1" "device-1") ++
      [.read 0, .cancel 0, .unwatch 0]

def watchedStore : Watching :=
  (watchMachine.runIf plainAction ⟨Memory.new, []⟩ watchedActions).get
    (by decide)

theorem watches_safe_and_ordered_once :
    watchedStore.observers.map Observer.closes = [1] ∧
      watchedStore.observers.map (fun observer =>
        (observer.received.length, observer.offered.length)) =
          [(1, watchBuffer + 1)] ∧ watchedStore.missing = 1 ∧
      watchedStore.memory.panicked = false ∧
      watchedStore.memory.metrics.value metricWatchDropped =
        Int64.ofNat watchedStore.missing := by
  have reachable : watchMachine.ReachableUnder
      (fun _ action => action.Plain) watchedStore :=
    (Machine.ReachableUnder.start rfl).runIf plain_of_plainAction
      (Option.some_get _).symm
  have kept := watches_safe_and_ordered reachable
  exact ⟨by decide, by decide, by decide, kept.1, kept.2.2.1⟩

end Ironclaw.Store
