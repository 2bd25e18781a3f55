import Ironclaw.Lib.Slots
import Ironclaw.Transport.Agent

/-!
# No batch is lost silently

As long as the sequence numbers in the names of the spool do not wrap, no name
is ever used twice.  Then `Drain` releases the entry it posted or nothing, and
every batch that was given to `Send` stays accounted for: it is acknowledged,
counted as refused, spooled, counted as dropped or reported to the caller.
-/

namespace Ironclaw.Transport

open Lib Domain Disk List Option Int64 HTTPS

/-! ## The agent -/

/-- The answer of `Enqueue` or of the post, once there is one. -/
def Phase.result : Phase → Option (Option Fault)
  | .posting | .spooling => none
  | .reading enqueued | .swapping enqueued _ | .reporting enqueued _
  | .returned enqueued => some enqueued

namespace Agent

variable {payload : Payload}

/-- The batch of a call is in one of the states that count. -/
def Accounts (agent : Agent) (id : Nat) : Prop :=
  some id ∈ agent.acknowledged ∨ some id ∈ agent.refused ∨
    some id ∈ agent.dropped ∨ ∃ entry ∈ queueOf agent.directory.journal,
        agent.owner entry = some id

/-- `Drain` is between the refusal of a batch and its counter. -/
def Refusing (agent : Agent) (id : Nat) : Prop :=
  ∃ held, held.owner = some id ∧ (agent.drain = .releasing held .refused ∨
      ∃ released, agent.drain = .counting held .refused released)

/-- The invariant of the agent. -/
structure Sound (agent : Agent) (spool : Spool) : Prop where
  queue : agent.https.queue = some spool
  keeps : Keeps agent.directory spool
  seq_le : spool.seq.toNat ≤ agent.names
  owned : ∀ name id, agent.owners.lookup name = some id →
    sequenceOf name ≤ spool.seq.toNat
  payloads : ∀ entry ∈ queueOf agent.directory.journal, ∀ id,
    agent.owner entry = some id → ∃ call, agent.calls[id]? = some call ∧
        call.payload = entry.payload
  /-- The entry that `Drain` holds is spooled, or its name is gone. -/
  held : ∀ held, agent.drain.held = some held →
    sequenceOf held.entry.name ≤ spool.seq.toNat ∧
      agent.owner held.entry = held.owner ∧
      ∀ entry ∈ queueOf agent.directory.journal,
        entry.name = held.entry.name → entry = held.entry
  turns : ∀ held turn, agent.drain = .releasing held turn →
    turn = .drained ∧ held.owner ∈ agent.acknowledged ∨ turn = .refused
  dropped : spool.dropped = Int64.ofNat agent.dropped.length
  refused : ∀ metrics, agent.https.metrics = some metrics →
    Metrics.value metrics metricRefused = Int64.ofNat agent.refused.length
  accounted : ∀ id call, agent.calls[id]? = some call →
    call.phase.result = some none → agent.Accounts id ∨ agent.Refusing id

/-! ### Moves of one call -/

variable {id : Nat}

theorem exists_payload_advance {calls : List SendCall}
    {old : Phase} (found : calls[id]? = some ⟨payload, old⟩)
    (phase : Phase) {other : Nat} {wanted : Payload}
    (known : ∃ call, calls[other]? = some call ∧ call.payload = wanted) :
    ∃ call, (calls.set id ⟨payload, phase⟩)[other]? = some call ∧
      call.payload = wanted := by
  exact Slots.exists_set found (fun same => same) known

section Steps

variable {agent after : Agent} {spool : Spool}
variable {name : String} {verdicts : List FsVerdict}

theorem refused_record
    {https : HTTPS} {delta value : Int64} (different : metricRefused ≠ name)
    (refused : ∀ metrics, https.metrics = some metrics →
      Metrics.value metrics metricRefused = value) :
    ∀ metrics, (https.record name delta).metrics = some metrics →
      Metrics.value metrics metricRefused = value :=
  @HTTPS.forall_record https (· = value) _ _ _ different refused

theorem refused_record_self {https : HTTPS} {value : Int64}
    (refused : ∀ metrics, https.metrics = some metrics →
      Metrics.value metrics metricRefused = value) :
    ∀ metrics, (https.record metricRefused 1).metrics = some metrics →
        Metrics.value metrics metricRefused = value + 1 := by
  intro metrics recorded
  obtain ⟨old, present, rfl⟩ := map_eq_some_iff.mp recorded
  rw [Metrics.value_increment_self, refused old present]

theorem judge_cases (posted : Option Fault) :
    posted = none ∧ HTTPS.judge posted = .drained ∨
      (∃ fault, posted = some fault ∧ fault.is errUnacceptable = true ∧
          HTTPS.judge posted = .refused) ∨
      ∃ fault, posted = some fault ∧ fault.is errUnacceptable = false ∧
          judge posted = .retry := by
  cases posted with
  | none => exact Or.inl ⟨rfl, rfl⟩
  | some fault =>
    cases refused : fault.is errUnacceptable with
    | true => exact Or.inr (Or.inl
        ⟨fault, rfl, refused, by simp [judge, refused]⟩)
    | false => exact Or.inr (Or.inr
        ⟨fault, rfl, refused, by simp [judge, refused]⟩)

section Sound

variable (sound : agent.Sound spool)
include sound

/-- A step of one call that leaves the spool and the batches alone. -/
theorem Sound.advance
    {old : Phase} (found : agent.calls[id]? = some ⟨payload, old⟩)
    (phase : Phase) (https : HTTPS) (queue : https.queue = agent.https.queue)
    (refused : ∀ metrics, https.metrics = some metrics →
      Metrics.value metrics metricRefused = Int64.ofNat agent.refused.length)
    (result : phase.result = some none →
      agent.Accounts id ∨ agent.Refusing id) :
    { agent with
      https := https
      calls := agent.calls.set id ⟨payload, phase⟩ }.Sound spool := by
  refine { sound with
    queue := queue.trans sound.queue
    payloads := fun entry member other owner =>
      exists_payload_advance found phase
        (sound.payloads entry member other owner)
    refused := refused
    accounted := ?_ }
  intro other call present answered
  simp only [Slots.getElem?_set _ found] at present
  split at present
  · rename_i same
    subst same
    cases present
    exact result answered
  · exact sound.accounted other call present answered

theorem Sound.send (encoded : Except Fault Payload) :
    (agent.send encoded).Sound spool := by
  refine { sound with payloads := ?_, accounted := ?_ }
  · intro entry member id owner
    obtain ⟨call, present, same⟩ := sound.payloads entry member id owner
    exact ⟨call, Slots.concat_iff.mpr (Or.inl present), same⟩
  · intro id call present answered
    rcases Slots.concat_iff.mp present with earlier | ⟨rfl, rfl⟩
    · exact sound.accounted id call earlier answered
    · -- The new call has no answer, or the error of the encoder.
      cases encoded with
      | ok | error => cases answered

theorem Sound.acknowledge (owner : Option Nat) :
    { agent with
      acknowledged := agent.acknowledged ++ [owner] }.Sound spool := by
  refine { sound with turns := ?_, accounted := ?_ }
  · intro held turn releasing
    rcases sound.turns held turn releasing with ⟨drained, known⟩ | refused
    · exact Or.inl ⟨drained, mem_append_left _ known⟩
    · exact Or.inr refused
  · intro id call present answered
    apply (sound.accounted id call present answered).imp_left
    exact Or.imp_left (mem_append_left _)

theorem Sound.refuse (owner : Option Nat) :
    { agent with
      https := agent.https.record metricRefused 1
      refused := agent.refused ++ [owner] }.Sound spool := by
  refine { sound with refused := ?_, accounted := ?_ }
  · rw [length_append, length_singleton, Word.ofNat_succ]
    exact refused_record_self sound.refused
  · intro id call present answered
    apply (sound.accounted id call present answered).imp_left
    exact Or.imp_right (Or.imp_left (mem_append_left _))

theorem Sound.answer
    {reply : Reply} (step : agent.answer id reply = some after) :
    after.Sound spool := by
  rw [Agent.answer] at step
  split at step
  · rename_i payload found
    rcases judge_cases (post reply) with
      ⟨posted, judged⟩ | ⟨fault, posted, refused, judged⟩ |
        ⟨fault, posted, other, judged⟩
    · rw [posted] at judged
      simp only [posted, judged, settle, some.injEq] at step
      subst step
      refine (sound.acknowledge (some id)).advance found
        (.returned none) (agent.https.record metricSent 1) rfl
        (refused_record (by decide) sound.refused) ?_
      intro _
      exact Or.inl (Or.inl (by simp))
    · rw [posted] at judged
      simp only [posted, judged, settle, refused, if_true, some.injEq] at step
      subst step
      exact (sound.refuse (some id)).advance found
        (.returned (some fault)) (agent.https.record metricRefused 1)
        rfl (sound.refuse (some id)).refused nofun
    · rw [posted] at judged
      simp only [posted, judged, settle, other, sound.queue,
        Bool.false_eq_true, if_false, isNone_some,
        some.injEq] at step
      subst step
      exact sound.advance found .spooling
        (agent.https.record metricSpooled 1) rfl
        (refused_record (by decide) sound.refused) nofun
  · cases step

theorem Sound.reportDropped (step : agent.reportDropped id = some after) :
    after.Sound spool := by
  rw [Agent.reportDropped] at step
  split at step
  · rename_i payload enqueued delta found
    cases step
    refine sound.advance found _ _
      (HTTPS.queue_reportDropped delta agent.https) ?_
      fun answered => sound.accounted id _ found answered
    rw [HTTPS.reportDropped]
    split
    · exact refused_record (by decide) sound.refused
    · exact sound.refused
  · cases step

end Sound

/-! ### Enqueue -/

theorem lookup_claim
    (entries : List Entry) (id : Nat) (owners : GoMap String Nat)
    (name : String) :
    (claim id entries owners).lookup name =
      if name ∈ entries.map Entry.name then some id
      else owners.lookup name := by
  induction entries generalizing owners with
  | nil => simp [claim]
  | cons entry rest induction =>
    change (claim id rest (owners.insert entry.name id)).lookup name = _
    rw [induction, map_cons]
    by_cases later : name ∈ rest.map Entry.name
    · simp [later]
    · by_cases same : name = entry.name
      · subst same
        simp [later]
      · rw [AList.lookup_insert_ne same]
        simp [later, same]

/-- Every drop that the spool counted is in the book. -/
theorem length_droppedBy
    {result : Spool} {fault : Option Fault} {directory : Directory} (id : Nat)
    (enqueued : Enqueued agent.directory spool payload (result, fault)
      directory) :
    result.dropped = spool.dropped +
      ofNat (agent.droppedBy id spool result directory).length := by
  rw [droppedBy, length_append, length_map]
  rcases enqueued.dropped with equal | more
  · rw [if_pos equal]
    exact equal
  · have different : result.dropped ≠ spool.dropped +
        ofNat (missing agent.directory directory).length := by
      rw [more]
      intro same
      have one : (1 : Int64) = 0 := by
        rwa [add_eq_left] at same
      cases one
    rw [if_neg different, length_singleton, Word.ofNat_succ, ← add_assoc]
    exact more

section Enqueueing

variable {directory : Directory}
variable {result : Spool × Option Fault}
variable {entry : Entry}

theorem lookup_claim_old
    (enqueued : Enqueued agent.directory spool payload result directory)
    (id : Nat) (old : sequenceOf name ≤ spool.seq.toNat) :
    (claim id (missing directory agent.directory) agent.owners).lookup name =
      agent.owners.lookup name := by
  rw [lookup_claim, if_neg]
  intro member
  obtain ⟨entry, gained, rfl⟩ := mem_map.mp member
  obtain ⟨queued, absent⟩ := mem_missing.mp gained
  have new := (enqueued.fresh entry queued absent).2
  omega

theorem lookup_claim_new (id : Nat) (owners : GoMap String Nat)
    (queued : entry ∈ queueOf directory.journal)
    (absent : entry ∉ queueOf agent.directory.journal) :
    (claim id (missing directory agent.directory) owners).lookup
        entry.name = some id := by
  rw [lookup_claim, if_pos]
  exact mem_map_of_mem (mem_missing.mpr ⟨queued, absent⟩)

section Sound

variable (sound : agent.Sound spool)
variable (enqueued : Enqueued agent.directory spool payload result directory)
include sound enqueued

theorem Sound.owned_claim {other : Nat}
    (owner : (claim id (missing directory agent.directory)
      agent.owners).lookup name = some other) :
    sequenceOf name ≤ result.1.seq.toNat := by
  rw [lookup_claim] at owner
  split at owner
  · rename_i member
    obtain ⟨entry, gained, rfl⟩ := mem_map.mp member
    exact enqueued.keeps.sequenced entry (mem_missing.mp gained).1
  · exact (sound.owned name other owner).trans enqueued.seq_le

theorem Sound.payloads_claim {other : Nat} {old phase : Phase}
    (found : agent.calls[id]? = some ⟨payload, old⟩)
    (member : entry ∈ queueOf directory.journal)
    (owner : (claim id (missing directory agent.directory)
      agent.owners).lookup entry.name = some other) :
    ∃ call, (agent.calls.set id ⟨payload, phase⟩)[other]? = some call ∧
      call.payload = entry.payload := by
  by_cases before : entry ∈ queueOf agent.directory.journal
  · rw [lookup_claim_old enqueued id
      (sound.keeps.sequenced entry before)] at owner
    exact exists_payload_advance found _
      (sound.payloads entry before other owner)
  · rw [lookup_claim_new id agent.owners member before] at owner
    cases owner
    refine ⟨⟨payload, phase⟩, ?_, (enqueued.fresh entry member before).1.symm⟩
    simp [Slots.getElem?_set _ found]

theorem Sound.owner_claim
    {other : Nat} (member : entry ∈ queueOf agent.directory.journal)
    (owner : agent.owner entry = some other) :
    some other ∈ agent.droppedBy id spool result.1 directory ∨
      entry ∈ queueOf directory.journal ∧
        (claim id (missing directory agent.directory)
          agent.owners).lookup entry.name = some other := by
  by_cases kept : entry ∈ queueOf directory.journal
  · refine Or.inr ⟨kept, ?_⟩
    rw [lookup_claim_old enqueued id (sound.keeps.sequenced entry member)]
    exact owner
  · refine Or.inl (mem_append_left _ ?_)
    exact mem_map.mpr ⟨entry, mem_missing.mpr ⟨member, kept⟩, owner⟩

theorem Sound.spooled (found : agent.calls[id]? = some ⟨payload, .spooling⟩) :
    { agent with
      directory := directory
      https := { agent.https with queue := some result.1 }
      calls := agent.calls.set id ⟨payload, .reading result.2⟩
      owners := claim id (missing directory agent.directory) agent.owners
      dropped := agent.dropped ++ agent.droppedBy id spool result.1 directory
      names := agent.names + 1 }.Sound result.1 where
  queue := rfl
  keeps := enqueued.keeps
  seq_le := enqueued.le_seq.trans (Nat.succ_le_succ sound.seq_le)
  owned _ _ owner := sound.owned_claim enqueued owner
  payloads _ member _ owner :=
    sound.payloads_claim enqueued found member owner
  held := by
    intro held holds
    obtain ⟨old, owner, alone⟩ := sound.held held holds
    refine ⟨old.trans enqueued.seq_le,
      (lookup_claim_old enqueued id old).trans owner, ?_⟩
    intro entry member same
    refine alone entry ?_ same
    -- A new entry cannot have the name that `Drain` holds.
    by_contra absent
    have new := (enqueued.fresh entry member absent).2
    rw [same] at new
    omega
  turns := sound.turns
  dropped := by
    rw [length_droppedBy id enqueued, sound.dropped, length_append, ofNat_add]
  refused := sound.refused
  accounted := by
    intro other call present answered
    simp only [Slots.getElem?_set _ found] at present
    split at present
    · rename_i same
      subst same
      cases present
      obtain ⟨entry, member, absent⟩ := enqueued.spooled (some.inj answered)
      exact Or.inl (Or.inr (Or.inr (Or.inr ⟨entry, member,
        lookup_claim_new id agent.owners member absent⟩)))
    · rcases sound.accounted other call present answered with
        (acknowledged | refused | dropped | ⟨entry, member, owner⟩) | refusing
      · exact Or.inl (Or.inl acknowledged)
      · exact Or.inl (Or.inr (Or.inl refused))
      · exact Or.inl (Or.inr (Or.inr (Or.inl (mem_append_left _ dropped))))
      · rcases sound.owner_claim enqueued member owner with lost | kept
        · exact Or.inl (Or.inr (Or.inr (Or.inl (mem_append_right _ lost))))
        · exact Or.inl (Or.inr (Or.inr (Or.inr ⟨entry, kept⟩)))
      · exact Or.inr refusing

end Sound

end Enqueueing

theorem Sound.enqueue
    (sound : agent.Sound spool) (bound : agent.names + 1 < 2 ^ 64)
    (step : agent.enqueue id verdicts = some after) :
    ∃ result, after.Sound result := by
  rw [Agent.enqueue, sound.queue] at step
  split at step
  · rename_i payload current found configured
    cases configured
    split at step
    · rename_i directory result fault unused ran
      cases step
      have limit := sound.seq_le
      have enqueued := Program.finished_of_wp
        (wp_enqueue_counted payload sound.keeps (by omega)) ran
      exact ⟨result, sound.spooled enqueued found⟩
    · cases step
  · cases step

/-! ### Drain -/

theorem Sound.peek
    (sound : agent.Sound spool) (step : agent.peek verdicts = some after) :
    after.Sound spool := by
  rw [Agent.peek, sound.queue] at step
  split at step
  · rename_i current idle configured
    cases configured
    split at step
    · rename_i directory result peeked unused ran
      cases step
      obtain ⟨rfl, rfl, found⟩ := Program.finished_of_wp
        (wp_peek sound.keeps.stored sound.keeps.lists) ran
      refine { sound with
        queue := rfl, held := ?_, turns := ?_, accounted := ?_ }
      · cases peeked with
        | error fault => exact nofun
        | ok oldest =>
          rintro held ⟨⟩
          have member := (found oldest.1 oldest.2 rfl).2
          refine ⟨sound.keeps.sequenced _ member, rfl, ?_⟩
          intro entry queued same
          exact sound.keeps.stored.entry_eq queued member same
      · cases peeked with
        | error | ok => exact nofun
      · intro id call present answered
        rcases sound.accounted id call present answered with
          known | ⟨held, -, releasing | ⟨released, counting⟩⟩
        · exact Or.inl known
        · cases idle.symm.trans releasing
        · cases idle.symm.trans counting
    · cases step
  · cases step

/-- `Drain` moves on with the entry it holds, or gives it back. -/
theorem Sound.drainTo (sound : agent.Sound spool) (drain : DrainPhase)
    (held : ∀ held, drain.held = some held → agent.drain.held = some held)
    (turns : ∀ held turn, drain = .releasing held turn →
      turn = .drained ∧ held.owner ∈ agent.acknowledged ∨ turn = .refused)
    (kept : ∀ id, agent.Refusing id →
      { agent with drain := drain }.Accounts id ∨
        { agent with drain := drain }.Refusing id) :
    { agent with drain := drain }.Sound spool := by
  refine { sound with
    held := fun item holds => sound.held item (held item holds)
    turns := turns
    accounted := ?_ }
  intro id call present answered
  rcases sound.accounted id call present answered with known | refusing
  · exact Or.inl known
  · exact kept id refusing

theorem not_refusing_of_posting
    {held : Held} (posting : agent.drain = .posting held) (id : Nat) :
    ¬agent.Refusing id := by
  rintro ⟨other, -, releasing | ⟨released, counting⟩⟩
  · cases posting.symm.trans releasing
  · cases posting.symm.trans counting

section Sound

variable (sound : agent.Sound spool)
include sound

theorem Sound.answerDrain
    {reply : Reply} (step : agent.answerDrain reply = some after) :
    after.Sound spool := by
  rw [Agent.answerDrain] at step
  split at step
  · rename_i held posting
    have holding : agent.drain.held = some held :=
      congrArg DrainPhase.held posting
    have none := not_refusing_of_posting posting
    split at step
    · cases step
      refine (sound.acknowledge held.owner).drainTo
        (.releasing held .drained) ?_ ?_ ?_
      · rintro _ ⟨⟩
        exact holding
      · rintro _ _ ⟨⟩
        exact Or.inl ⟨rfl, by simp⟩
      · intro id refusing
        exact absurd refusing (none id)
    · cases step
      refine sound.drainTo (.releasing held .refused) ?_ ?_ ?_
      · rintro _ ⟨⟩
        exact holding
      · rintro _ _ ⟨⟩
        exact Or.inr rfl
      · intro id refusing
        exact absurd refusing (none id)
    · cases step
      exact sound.drainTo .idle nofun nofun fun id refusing =>
        absurd refusing (none id)
  · cases step

theorem Sound.release (step : agent.release verdicts = some after) :
    ∃ result, after.Sound result := by
  rw [Agent.release, sound.queue] at step
  split at step
  · rename_i held turn current releasing configured
    cases configured
    split at step
    · rename_i directory result fault unused ran
      cases step
      have released := Program.finished_of_wp
        (wp_release_released held.entry.name sound.keeps) ran
      have holding : agent.drain.held = some held :=
        congrArg DrainPhase.held releasing
      obtain ⟨old, owner, alone⟩ := sound.held held holding
      refine ⟨result, rfl, released.keeps, ?_, ?_, ?_, ?_, nofun,
        ?_, sound.refused, ?_⟩
      · rw [released.seq]
        exact sound.seq_le
      · rw [released.seq]
        exact sound.owned
      · intro entry member
        exact sound.payloads entry (released.queue entry member)
      · rintro _ ⟨⟩
        rw [released.seq]
        exact ⟨old, owner, fun entry member =>
          alone entry (released.queue entry member)⟩
      · rw [released.dropped]
        exact sound.dropped
      · intro id call present answered
        rcases sound.accounted id call present answered with
          (acknowledged | refused | dropped | ⟨entry, member, owned⟩) |
            ⟨other, owned, refusing | ⟨fault, counting⟩⟩
        · exact Or.inl (Or.inl acknowledged)
        · exact Or.inl (Or.inr (Or.inl refused))
        · exact Or.inl (Or.inr (Or.inr (Or.inl dropped)))
        · by_cases kept : entry ∈ queueOf directory.journal
          · exact Or.inl (Or.inr (Or.inr (Or.inr ⟨entry, kept, owned⟩)))
          · -- The entry that left is the one that was posted.
            have same := alone entry member (released.only entry member kept)
            rw [same] at owned
            have mine : held.owner = some id := owner ▸ owned
            rcases sound.turns held turn releasing with
              ⟨-, acknowledged⟩ | rfl
            · exact Or.inl (Or.inl (mine ▸ acknowledged))
            · exact Or.inr ⟨held, mine, Or.inr ⟨_, rfl⟩⟩
        · cases releasing.symm.trans refusing
          exact Or.inr ⟨held, owned, Or.inr ⟨_, rfl⟩⟩
        · cases releasing.symm.trans counting
    · cases step
  · cases step

theorem Sound.noted (https : HTTPS) (queue : https.queue = agent.https.queue)
    (refused : ∀ metrics, https.metrics = some metrics →
      Metrics.value metrics metricRefused =
        Int64.ofNat agent.refused.length) :
    { agent with https := https }.Sound spool :=
  { sound with queue := queue.trans sound.queue, refused := refused }

theorem Sound.count (step : agent.count = some after) :
    after.Sound spool := by
  rw [Agent.count] at step
  split at step
  · rename_i held turn released counting
    cases step
    have noted : { agent with
        https := if released.isSome then
          agent.https.record metricReleaseFailed 1
          else agent.https }.Sound spool := by
      apply sound.noted
      · split <;> rfl
      · split
        · exact refused_record (by decide) sound.refused
        · exact sound.refused
    have ends : turn ≠ .refused → ∀ https,
        { agent with https := https }.Sound spool →
          { agent with https := https, drain := .idle }.Sound spool := by
      intro different https sound
      refine sound.drainTo .idle nofun nofun ?_
      rintro id ⟨other, -, releasing | ⟨fault, same⟩⟩
      · cases counting.symm.trans releasing
      · cases counting.symm.trans same
        exact absurd rfl different
    cases turn with
    | refused =>
      refine (noted.refuse held.owner).drainTo .idle nofun nofun ?_
      rintro id ⟨other, owner, releasing | ⟨fault, same⟩⟩
      · cases counting.symm.trans releasing
      · cases counting.symm.trans same
        exact Or.inl (Or.inr (Or.inl (by simp [owner])))
    | drained =>
      exact ends nofun _ (noted.noted _ rfl
        (refused_record (by decide) noted.refused))
    | stopped | idle | retry => exact ends nofun _ noted
  · cases step

/-! ### Runs -/

theorem Sound.step {move : Move} (bound : after.names < 2 ^ 64)
    (step : agent.step move = some after) : ∃ result, after.Sound result := by
  cases move with
  | send encoded =>
    cases step
    exact ⟨spool, sound.send encoded⟩
  | answer id reply => exact ⟨spool, sound.answer step⟩
  | enqueue id verdicts =>
    refine sound.enqueue ?_ step
    simp only [Agent.step, Agent.enqueue] at step
    split at step
    · split at step
      · cases step
        exact bound
      · cases step
    · cases step
  | readDropped id | swapDropped id =>
    simp only [Agent.step, Agent.readDropped, Agent.swapDropped] at step
    split at step <;> cases step
    exact ⟨spool, sound.advance ‹_› _ _ rfl sound.refused fun answered =>
      sound.accounted id _ ‹_› answered⟩
  | reportDropped id => exact ⟨spool, sound.reportDropped step⟩
  | peek verdicts => exact ⟨spool, sound.peek step⟩
  | answerDrain reply => exact ⟨spool, sound.answerDrain step⟩
  | release verdicts => exact sound.release step
  | count => exact ⟨spool, sound.count step⟩

end Sound

theorem grows_step {move : Move} (step : agent.step move = some after) :
    agent.names ≤ after.names ∧
      agent.dropped.length ≤ after.dropped.length := by
  cases move <;>
    simp only [Agent.step, Agent.answer, Agent.enqueue, Agent.readDropped,
      Agent.swapDropped, Agent.reportDropped, Agent.peek,
      Agent.answerDrain, Agent.release, Agent.count] at step <;>
    (repeat' split at step) <;> cases step <;>
    first
      | exact ⟨le_refl _, le_refl _⟩
      | exact ⟨Nat.le_succ _, (prefix_append _ _).length_le⟩

theorem Opened.sound {maxBytes : Int64} {recorded : Bool}
    (opened : agent.Opened maxBytes recorded) :
    ∃ spool, agent.Sound spool := by
  obtain ⟨before, verdicts, spool, unused, stored, ran, https, names,
    dropped⟩ := opened.opens
  refine ⟨spool, by rw [https], keeps_of_open stored ran, by omega,
    ?_, ?_, ?_, ?_, dropped, ?_, ?_⟩
  · rw [opened.owners]
    exact nofun
  · intro entry member id owner
    rw [Agent.owner, opened.owners] at owner
    cases owner
  · rw [opened.drain]
    exact nofun
  · rw [opened.drain]
    exact nofun
  · rw [https, opened.refused]
    intro metrics recorder
    cases recorded with
    | true =>
      cases recorder
      rfl
    | false => cases recorder
  · rw [opened.calls]
    exact nofun

theorem sound_of_reachable {maxBytes : Int64} {recorded : Bool}
    (reachable : (agentMachine maxBytes recorded).Reachable agent)
    (bound : agent.names < 2 ^ 64) : ∃ spool, agent.Sound spool := by
  refine @Machine.Reachable.invariant _ _ _
    (fun agent => agent.names < 2 ^ 64 → ∃ spool, agent.Sound spool)
    _ ?_ ?_ reachable bound
  · intro agent opened _
    exact opened.sound
  · intro agent move after _ invariant step limit
    have grows := grows_step step
    obtain ⟨spool, sound⟩ := invariant (by omega)
    exact sound.step limit step

end Steps

end Agent

/-! ## The property -/

/--
What is promised to a batch whose call of `Send` returned: it is in one of
these states unless `Drain` is working on it.
-/
def Agent.BatchKept (agent : Agent) (id : Nat) (call : SendCall) : Prop :=
  ∀ fault, call.phase = .returned fault →
    (∀ held, agent.drain.held = some held → held.owner ≠ some id) →
      fault.isSome = true ∨ some id ∈ agent.acknowledged ∨
        some id ∈ agent.refused ∨ some id ∈ agent.dropped ∨
        ∃ spool entry, agent.https.queue = some spool ∧
          entry.name ∈ spool.order ∧ agent.owner entry = some id ∧
          entry.payload = call.payload ∧
          agent.directory.files.lookup entry.name = some call.payload

/--
While the sequence numbers of the spool do not wrap, no batch is lost
silently: every batch is kept, every drop is counted by the spool and every
refusal by the recorder, and what `Drain` releases is what it posted.
-/
theorem no_batch_lost_silently
    {maxBytes : Int64} {recorded : Bool} {agent : Agent}
    (reachable : (agentMachine maxBytes recorded).Reachable agent)
    (bound : agent.names < 2 ^ 64) :
    (∀ id call, agent.calls[id]? = some call → agent.BatchKept id call) ∧
      (∀ spool, agent.https.queue = some spool →
        spool.dropped = Int64.ofNat agent.dropped.length) ∧
      (∀ metrics, agent.https.metrics = some metrics →
        Metrics.value metrics metricRefused =
          Int64.ofNat agent.refused.length) ∧
      ∀ held turn verdicts after, agent.drain = .releasing held turn →
        agent.release verdicts = some after →
        ∀ entry ∈ queueOf agent.directory.journal,
          entry ∉ queueOf after.directory.journal →
            entry = held.entry ∧ agent.owner entry = held.owner := by
  obtain ⟨spool, sound⟩ := Agent.sound_of_reachable reachable bound
  refine ⟨?_, ?_, sound.refused, ?_⟩
  · intro id call present fault returned idle
    cases fault with
    | some fault => exact Or.inl rfl
    | none =>
      have answered : call.phase.result = some none := by
        rw [returned]
        rfl
      rcases sound.accounted id call present answered with
        (acknowledged | refused | dropped | ⟨entry, member, owner⟩) |
          ⟨held, owner, releasing | ⟨released, counting⟩⟩
      · exact Or.inr (Or.inl acknowledged)
      · exact Or.inr (Or.inr (Or.inl refused))
      · exact Or.inr (Or.inr (Or.inr (Or.inl dropped)))
      · obtain ⟨other, same, payload⟩ := sound.payloads entry member id owner
        rw [present] at same
        cases same
        have listed : entry.name ∈ spool.order :=
          sound.keeps.lists.mem_order.mpr ⟨entry, member, rfl⟩
        refine Or.inr (Or.inr (Or.inr (Or.inr ⟨spool, entry,
          sound.queue, listed, owner, payload.symm, ?_⟩)))
        rw [payload]
        exact sound.keeps.stored.present entry member
      · exact absurd owner (idle held (by rw [releasing]; rfl))
      · exact absurd owner (idle held (by rw [counting]; rfl))
  · intro current configured
    rw [sound.queue] at configured
    cases configured
    exact sound.dropped
  · intro held turn verdicts after releasing step entry member gone
    have holding : agent.drain.held = some held := by
      rw [releasing]
      rfl
    obtain ⟨-, owner, alone⟩ := sound.held held holding
    rw [Agent.release, releasing, sound.queue] at step
    simp only at step
    split at step
    · next directory result fault unused ran =>
        cases step
        have released := Program.finished_of_wp
          (wp_release_released held.entry.name sound.keeps) ran
        have same := alone entry member
          (released.only entry member gone)
        exact ⟨same, same ▸ owner⟩
    · cases step

/-- The second batch is spooled while `Drain` releases the first one. -/
def releasingMoves : List Move :=
  spooledMoves ++ [.peek [.proceed, .proceed], .answerDrain (.answered 200),
    .send (.ok [8]), .answer 1 (.failed errNetwork),
    .enqueue 1 (List.replicate 6 .proceed), .readDropped 1,
    .swapDropped 1, .reportDropped 1]

def releasingAgent : Agent :=
  ((agentMachine 2 true).run (freshAgent 2 true) releasingMoves).get
    (by decide)

theorem no_batch_lost_silently_spooled :
    ∃ held turn, releasingAgent.drain = .releasing held turn ∧
      held.owner = some 0 ∧
      releasingAgent.calls[1]? = some ⟨[8], .returned none⟩ ∧
      releasingAgent.BatchKept 1 ⟨[8], .returned none⟩ ∧
      ∀ verdicts after, releasingAgent.release verdicts = some after →
        ∀ entry ∈ queueOf releasingAgent.directory.journal,
          entry ∉ queueOf after.directory.journal → entry = held.entry := by
  have reachable : (agentMachine 2 true).Reachable releasingAgent :=
    (Machine.Reachable.start
      (freshAgent_opened (by decide) true)).run (Option.some_get _).symm
  have kept := no_batch_lost_silently reachable (by decide)
  refine ⟨⟨⟨entryName 1 1, [7]⟩, some 0⟩, _, rfl, rfl, rfl,
    kept.1 1 _ rfl, ?_⟩
  intro verdicts after released entry member gone
  exact (kept.2.2.2 _ _ verdicts after rfl released entry member gone).1

end Ironclaw.Transport
