import LogosInspector.Operations.Consistency

/-!
# The chronicle of deferred events

The registry does not say what has become of the events that were once deferred. Here a log is kept
next to it: for each module, the events that wait in its journal, numbered as they have arrived, and
those that have left it, each with its fate (`EventLog`). A log follows the calls of a run
(`Chronicle`), and a call may end the wait of an event only in one of three ways (`JournalStep`): by
a replay, which applies it or takes a candidate off; by the removal of its last candidate; or by an
eviction, which leaves evidence on every candidate.

Every run has such a log. Since each number is either waiting or has departed, and has departed once
(`deferred_events_accounted`), no event is applied twice, or to two operations.
-/

namespace LogosInspector.Operations

open List Table
open RegistryState (initial)

open Mutation

/-! ### Logs -/

/-- A deferred event with its number among the events of its module. -/
abbrev Numbered := ℕ × PendingModuleEvent

/-- An event that has left the journal of its module: as it was then, and why. -/
structure Departure where
  number : ℕ
  /-- How many calls there were before the one in which it left. -/
  time : ℕ
  pending : PendingModuleEvent
  fate : EventFate

/-- What is known of the events of a module that have been deferred. -/
structure EventLog where
  waiting : List Numbered
  /-- How many have arrived. -/
  arrivals : ℕ
  departed : List Departure

/-- The events that go on waiting. -/
def stillWaiting (events : List (Numbered × EventFate)) : List Numbered :=
  events.filterMap fun event => (event.1.2.follow event.2).map (event.1.1, ·)

/-- The events that do not. -/
def departures (time : ℕ) (events : List (Numbered × EventFate)) : List Departure :=
  events.filterMap fun event =>
    if event.1.2.follow event.2 = none then some ⟨event.1.1, time, event.1.2, event.2⟩ else none

/-- **The log after a call**, in which the events that wait have met some fates and others have
arrived. -/
def EventLog.advance (log : EventLog) (time : ℕ) (fates : List EventFate)
    (arrived : List PendingModuleEvent) : EventLog where
  waiting := stillWaiting (log.waiting.zip fates) ++
    (List.range' log.arrivals arrived.length).zip arrived
  arrivals := log.arrivals + arrived.length
  departed := log.departed ++ departures time (log.waiting.zip fates)

/-- **Each event that has arrived is waiting or has departed, and only once.** -/
def EventLog.Accounted (log : EventLog) : Prop :=
  (log.waiting.map Prod.fst ++ log.departed.map Departure.number).Perm (List.range log.arrivals)

theorem stillWaiting_events (waiting : List Numbered) (fates : List EventFate) :
    (stillWaiting (waiting.zip fates)).map Prod.snd = survivors (waiting.map Prod.snd) fates := by
  induction waiting generalizing fates with
  | nil => rfl
  | cons numbered _ ih =>
    cases fates with
    | nil => rfl
    | cons fate _ =>
      rw [map_cons, survivors_cons, ← ih, zip_cons_cons, stillWaiting, filterMap_cons]
      cases hf : numbered.2.follow fate with
      | none => rfl
      | some _ => rfl

/-- An event either waits or departs. -/
theorem stillWaiting_departures (time : ℕ) (events : List (Numbered × EventFate)) :
    ((stillWaiting events).map Prod.fst ++ (departures time events).map Departure.number).Perm
      (events.map (·.1.1)) := by
  induction events with
  | nil => exact .nil
  | cons event _ ih =>
    unfold stillWaiting departures at ih ⊢
    rw [filterMap_cons, filterMap_cons, map_cons]
    cases hf : event.1.2.follow event.2 with
    | none =>
      rw [if_pos rfl]
      exact perm_middle.trans (ih.cons _)
    | some _ =>
      rw [if_neg (by simp)]
      exact ih.cons _

/-- The log keeps account of its events. -/
theorem EventLog.Accounted.advance {log : EventLog} (h : log.Accounted) {fates : List EventFate}
    (hlen : fates.length = log.waiting.length) (time : ℕ) (arrived : List PendingModuleEvent) :
    (log.advance time fates arrived).Accounted := by
  unfold EventLog.Accounted EventLog.advance at *
  have hnew : ((List.range' log.arrivals arrived.length).zip arrived).map Prod.fst =
      List.range' log.arrivals arrived.length :=
    map_fst_zip (by simp)
  have hs : (log.waiting.zip fates).map (·.1.1) = log.waiting.map Prod.fst := by
    have hzip : (log.waiting.zip fates).map Prod.fst = log.waiting :=
      map_fst_zip hlen.ge
    conv_rhs => rw [← hzip, map_map]
    rfl
  have hrange : List.range (log.arrivals + arrived.length) =
      List.range log.arrivals ++ List.range' log.arrivals arrived.length := by
    rw [range_eq_range', range_eq_range', ← List.range'_append_1, Nat.zero_add]
  rw [map_append, map_append, hnew, hrange]
  -- the arrivals go to the end, and the departures next to those that still wait
  calc _ = (stillWaiting (log.waiting.zip fates)).map Prod.fst ++
        (List.range' log.arrivals arrived.length ++ (log.departed.map Departure.number ++
          (departures time (log.waiting.zip fates)).map Departure.number)) := by
        rw [append_assoc]
    List.Perm _ ((stillWaiting (log.waiting.zip fates)).map Prod.fst ++
        ((departures time (log.waiting.zip fates)).map Departure.number ++
          (log.departed.map Departure.number ++ List.range' log.arrivals arrived.length))) := by
        refine List.Perm.append_left _ (perm_append_comm.trans ?_)
        rw [append_assoc]
        exact (perm_append_comm_assoc _ _ _)
    List.Perm _ (log.waiting.map Prod.fst ++
        (log.departed.map Departure.number ++ List.range' log.arrivals arrived.length)) := by
        rw [← append_assoc, ← hs]
        exact (stillWaiting_departures time _).append_right _
    List.Perm _ (List.range log.arrivals ++ List.range' log.arrivals arrived.length) := by
        rw [← append_assoc]
        exact h.append_right _

theorem EventLog.advance_events (log : EventLog) (time : ℕ) (fates : List EventFate)
    (arrived : List PendingModuleEvent) :
    (log.advance time fates arrived).waiting.map Prod.snd =
      survivors (log.waiting.map Prod.snd) fates ++ arrived := by
  unfold EventLog.advance
  rw [map_append, stillWaiting_events, map_snd_zip (by simp)]

section Chronicle

variable {ext : OperationExternals} {s : RegistryState ext} {readings : Readings ext}
  {call : RegistryCall ext} {moduleName op : Text}

/-! ### What a call does to a journal -/

/-- **That an event has been evicted is recorded on an operation** as evidence in its history. -/
def OverflowRecorded (clock : WallClock ext) (before after : RegistryState ext)
    (event : ModuleEventEnvelope) (operationId : Text) : Prop :=
  ∃ record record' evidence, before.records.find? operationId = some record ∧
    after.records.find? operationId = some record' ∧
    pushEvidence clock record evidence = .ok record' ∧ overflowEvidence event ∈ evidence

/-- **What a call can do to the journal of a module**, with the fates of the events that were in it
and the events that it has put there. -/
inductive JournalStep (readings : Readings ext) (before after : RegistryState ext)
    (moduleName : Text) : RegistryCall ext → List EventFate → List PendingModuleEvent → Prop
  | untouched {call : RegistryCall ext} (hevents : after.pendingModuleEvents.eventsOf moduleName =
        before.pendingModuleEvents.eventsOf moduleName) :
      JournalStep readings before after moduleName call
        ((before.pendingModuleEvents.eventsOf moduleName).map PendingModuleEvent.spared) []
  /-- An operation is removed, and is no candidate any more. -/
  | removed {operationId : Text} (hevents : after.pendingModuleEvents.eventsOf moduleName =
        survivors (before.pendingModuleEvents.eventsOf moduleName)
          ((before.pendingModuleEvents.eventsOf moduleName).map (·.struck operationId))) :
      JournalStep readings before after moduleName (.remove operationId)
        ((before.pendingModuleEvents.eventsOf moduleName).map (·.struck operationId)) []
  /-- An operation that has waited for the module does so no more. The journal is replayed to its
  record, as the transition has left it, and what that makes of the record is kept. -/
  | replayed {operationId : Text} {change : RuntimeOperationTransition} {swept : RegistryState ext}
      {record record₁ record₂ : RuntimeOperationRecord ext} {disposition : TransitionDisposition}
      {fates : List EventFate} (hswept : Swept before swept)
      (hfind : before.records.find? operationId = some record)
      (hpending : record.pendingModuleName = some moduleName)
      (happlies : TransitionApplies readings.clock swept.records operationId change record record₁
        disposition)
      (hreplay : replayFates readings.clock operationId
        (before.pendingModuleEvents.eventsOf moduleName) record₁ = .ok fates record₂)
      (hrecord : ∀ record', after.records.find? operationId = some record' →
        record'.events = record₂.events ∧ record'.operation.status = record₂.operation.status)
      (hevents : after.pendingModuleEvents.eventsOf moduleName =
        survivors (before.pendingModuleEvents.eventsOf moduleName) fates) :
      JournalStep readings before after moduleName (.transition operationId change) fates []
  /-- A module event is deferred. The oldest events may be evicted for it. -/
  | deferred {event : ModuleEventEnvelope} {evicted kept : List PendingModuleEvent}
      {pending : PendingModuleEvent} (hmodule : event.moduleName = moduleName)
      (hpending : pending.event = event)
      (hbefore : before.pendingModuleEvents.eventsOf moduleName = evicted ++ kept)
      (hevents : after.pendingModuleEvents.eventsOf moduleName = kept ++ [pending])
      (hevidence : ∀ pending ∈ evicted, ∀ operationId ∈ pending.candidateOperationIds,
        OverflowRecorded readings.clock before after pending.event operationId) :
      JournalStep readings before after moduleName (.ingestModuleEvent event)
        (evicted.map (fun _ => .overflowed) ++ kept.map PendingModuleEvent.spared) [pending]

variable {fates : List EventFate}

variable {events arrived : List PendingModuleEvent} {before after : RegistryState ext}
  {r r' : RuntimeOperationRecord ext} {terminalAt terminalExpiresAt : ℕ}
  {clock : WallClock ext} {calls : List (Readings ext × RegistryCall ext)} {fate : EventFate}
  {departure : Departure}

theorem survivors_append {events' : List PendingModuleEvent} {fates' : List EventFate}
    (hlen : events.length = fates.length) :
    survivors (events ++ events') (fates ++ fates') =
      survivors events fates ++ survivors events' fates' := by
  unfold survivors
  rw [zipWith_append hlen, List.reduceOption, filterMap_append]

theorem survivors_overflowed (events : List PendingModuleEvent) :
    survivors events (events.map fun _ => .overflowed) = [] := by
  induction events with
  | nil => rfl
  | cons _ _ ih =>
    rw [map_cons, survivors_cons, ih]
    rfl

/-- Every event of the journal has a fate, and what is in the journal afterwards are those that
stay, and what has arrived. -/
theorem JournalStep.result (h : JournalStep readings before after moduleName call fates arrived) :
    fates.length = (before.pendingModuleEvents.eventsOf moduleName).length ∧
      after.pendingModuleEvents.eventsOf moduleName =
        survivors (before.pendingModuleEvents.eventsOf moduleName) fates ++ arrived := by
  cases h with
  | untouched hevs =>
    refine ⟨length_map _, ?_⟩
    rw [hevs, survivors_spared, append_nil]
  | removed hevs => exact ⟨length_map _, hevs.trans (append_nil _).symm⟩
  | replayed _ _ _ _ hr _ hevs =>
    exact ⟨replayFates_length hr, hevs.trans (append_nil _).symm⟩
  | deferred _ _ hb hevs =>
    rw [hb, hevs]
    refine ⟨by simp, ?_⟩
    rw [survivors_append (by simp), survivors_overflowed, survivors_spared, nil_append]

/-! ### Every call is a step -/

theorem swept_find? (h : Swept before after) (hrun : r.operation.status.isTerminal = false) :
    after.records.find? op = some r ↔ before.records.find? op = some r := by
  rw [find?_eq_some, find?_eq_some, h.mem_iff hrun]

/-- What is found of an operation after its end has been noted. -/
theorem find?_track (h : (trackNewlyTerminalRecord op terminalAt terminalExpiresAt s).records.find?
      op = some r') :
    ∃ r, s.records.find? op = some r ∧ r'.events = r.events ∧ r'.operation = r.operation := by
  unfold trackNewlyTerminalRecord at h
  cases hf : s.records.find? op with rw [hf] at h
  | none =>
    rw [hf] at h
    cases h
  | some r =>
    dsimp only at h
    by_cases hkept : r.operation.status.isTerminal = false ∨ r.terminalAt.isSome
    · rw [if_pos hkept, hf] at h
      cases h
      exact ⟨_, rfl, rfl, rfl⟩
    · rw [if_neg hkept] at h
      rw [find?_insert, if_pos] at h
      · cases h
        exact ⟨r, rfl, rfl, rfl⟩
      · exact (find?_eq_some.1 hf).2.symm

theorem JournalStep.of_same (h : after.pendingModuleEvents = s.pendingModuleEvents) :
    ∃ fates arrived, JournalStep readings s after moduleName call fates arrived :=
  ⟨_, _, .untouched (congrArg (Journals.eventsOf · moduleName) h)⟩

@[simp] theorem track_journals (op : Text) (terminalAt terminalExpiresAt : ℕ) :
    (trackNewlyTerminalRecord op terminalAt terminalExpiresAt s).pendingModuleEvents =
      s.pendingModuleEvents := by
  unfold trackNewlyTerminalRecord
  split
  · rfl
  · split_ifs <;> rfl

@[simp] theorem tracked_journals (op : Option Text) (terminalAt terminalExpiresAt : ℕ) :
    (s.tracked op terminalAt terminalExpiresAt).pendingModuleEvents = s.pendingModuleEvents := by
  cases op with
  | none => rfl
  | some _ => exact track_journals _ _ _

/-- A record of an operation that runs is left as it is. -/
theorem mem_tracked {ended : Option Text} (hm : r ∈ s.records)
    (hrun : r.operation.status.isTerminal = false) :
    r ∈ (s.tracked ended terminalAt terminalExpiresAt).records := by
  unfold RegistryState.tracked trackNewlyTerminalRecord
  split
  · exact hm
  · split
    · exact hm
    · next op _ stale hf =>
      split_ifs with hkept
      · exact hm
      · obtain ⟨hmem, _⟩ := find?_eq_some.1 hf
        refine mem_insert.2 (.inr ⟨hm, fun hs => hkept (.inl ?_)⟩)
        rw [← eq_of_key_eq hm hmem hs]
        exact hrun

/-- A transition. -/
theorem transition_step (h : RegistrySound s) (readings : Readings ext) (op : Text)
    (change : RuntimeOperationTransition) (moduleName : Text) :
    ∃ fates arrived, JournalStep readings s
      (Mutation.left (transition readings op change s)) moduleName
      (.transition op change) fates arrived := by
  rcases transition_result readings op change h.journals with
    ⟨_, heq⟩ | ⟨_, -, hsw, ⟨_, _, heq, hs⟩ | ⟨-, heq⟩ |
      ⟨r, r₁, disposition, middle, expiry, final, hf, hap, hreplays, heq, hfin⟩⟩
  all_goals rw [heq]
  · exact JournalStep.of_same rfl
  · exact JournalStep.of_same (hs.journals.trans hsw.journals)
  · exact JournalStep.of_same hsw.journals
  · have hj : final.pendingModuleEvents = middle.pendingModuleEvents :=
      hfin.journals.trans (track_journals _ _ _)
    generalize hmod : replayedModule r change = replayed at hreplays
    cases hreplays with
    | nothing => exact JournalStep.of_same (hj.trans hsw.journals)
    | @journal other found r₂ fates hfound hr =>
      obtain ⟨⟨hrun, -⟩, hp⟩ := Option.ite_none_right_eq_some.1 hmod
      rw [find?_insert_changed hf hap.changed] at hfound
      obtain rfl : r₁ = found := Option.some.inj hfound
      rw [hsw.journals] at hr hj
      by_cases ho : moduleName = other
      · subst ho
        refine ⟨fates, [], .replayed hsw ((swept_find? hsw hrun).1 hf) hp hap
          hr (fun r' hrec' => ?_) ?_⟩
        · -- what the replay has left is noted to be over, and may be purged
          obtain ⟨hm, hid⟩ := find?_eq_some.1 hrec'
          obtain ⟨_, ht, hpurge⟩ := hfin.origin r' hm
          obtain ⟨_, hlast, hevs, hoperation⟩ := find?_track (find?_eq_some.2
            ⟨ht, hpurge.operationId.symm.trans hid⟩)
          have hch := replayFates_changed hr
          have hid₂ : r₂.operation.operationId = op := hch.operationId.trans
            (hap.changed.operationId.trans (find?_eq_some.1 hf).2)
          rw [insert_insert_changed hch, find?_insert, if_pos hid₂.symm] at hlast
          obtain rfl := Option.some.inj hlast
          refine ⟨Eq.trans (congrArg (·.events) hpurge.same) hevs, hpurge.status.trans ?_⟩
          rw [hoperation]
        · rw [left_ok, hj, Journals.eventsOf_replace, if_pos rfl]
      · refine ⟨_, _, .untouched ?_⟩
        rw [left_ok, hj, Journals.eventsOf_replace, if_neg ho]

variable {pending : PendingModuleEvent}

/-- What is evicted is recorded on the operations that it was kept for. They still run, so that
no sweep touches them. -/
theorem Defers.overflowRecorded {event : ModuleEventEnvelope}
    {candidates : List Text} {evicted : List PendingModuleEvent}
    {swept middle final : RegistryState ext}
    (h : Defers clock event candidates evicted swept middle)
    (hawait : s.Awaits moduleName op) (hsw : Swept s swept)
    (hkept : ∀ r ∈ middle.records, r.operation.status.isTerminal = false →
      r ∈ final.records) (hp : pending ∈ evicted)
    (hcand : op ∈ pending.candidateOperationIds) :
    OverflowRecorded clock s final pending.event op := by
  obtain ⟨r, hm, hid, hrun, -⟩ := hawait
  have hf : s.records.find? op = some r := find?_eq_some.2 ⟨hm, hid⟩
  have hs := (swept_find? hsw hrun).2 hf
  rcases h.records op with ⟨hn, -⟩ | ⟨other, r', ho, hafter, hpush⟩
  · rw [hs] at hn
    cases hn
  · obtain rfl : r = other := Option.some.inj (hs.symm.trans ho)
    have hrunning' : r'.operation.status.isTerminal = false := by
      rw [← hrun]
      exact congrArg (·.operation.status.isTerminal) (pushEvidence_essence hpush)
    obtain ⟨hmem', hid'⟩ := find?_eq_some.1 hafter
    refine ⟨r, r', _, hf, find?_eq_some.2 ⟨hkept r' hmem' hrunning', hid'⟩, hpush, ?_⟩
    refine mem_append_left _ (mem_flatMap.2 ⟨pending, hp, ?_⟩)
    exact mem_replicate.2 ⟨(count_pos_iff.2 hcand).ne', rfl⟩

/-- A module event. -/
theorem ingest_step (h : RegistrySound s) (readings : Readings ext)
    (event : ModuleEventEnvelope) (moduleName : Text) :
    ∃ fates arrived, JournalStep readings s
      (Mutation.left (ingestModuleEventWithSettlement readings event s)) moduleName
      (.ingestModuleEvent event) fates arrived := by
  rcases ingest_result readings event h with
    ⟨_, heq⟩ | ⟨swept, -, hsw, ⟨_, _, heq, hs⟩ |
      ⟨ingress, records, result, middle, expiry, settled, final, hap, hd, -, heq, hfin⟩⟩
  all_goals rw [heq]
  · exact JournalStep.of_same rfl
  · exact JournalStep.of_same (hs.journals.trans hsw.journals)
  · have hj : final.pendingModuleEvents = middle.pendingModuleEvents :=
      hfin.journals.trans (tracked_journals _ _ _)
    cases hd with
    | settled => exact JournalStep.of_same (hj.trans hsw.journals)
    | @deferred _ _ hu _ hdef =>
      obtain rfl := hap.records_eq hu
      obtain ⟨kept, eventBytes, -, hb, -, -, hafter⟩ := hdef.events
      rw [hsw.journals] at hb hafter
      rw [hafter] at hj
      by_cases hmod : event.moduleName = moduleName
      · subst hmod
        have hevs : final.pendingModuleEvents.eventsOf event.moduleName =
            kept ++ [⟨event, pendingModuleEventCandidates swept.records event.moduleName,
              eventBytes⟩] := by
          rw [hj, Journals.eventsOf_replace, if_pos rfl]
        refine ⟨_, _, .deferred rfl ?_ hb hevs ?_⟩
        · rfl
        · intro pending hp cand hcand
          have hm : pending ∈ s.pendingModuleEvents.eventsOf event.moduleName := by
            rw [hb]
            exact mem_append_left _ hp
          exact hdef.overflowRecorded ((h.journals.journal_of_mem hm).2 cand hcand)
            hsw (fun r hr hrun => hfin.running r (mem_tracked hr hrun) hrun) hp hcand
      · refine ⟨_, _, .untouched ?_⟩
        rw [left_ok, hj, Journals.eventsOf_replace, if_neg (Ne.symm hmod)]

theorem withoutOperation_events (events : List PendingModuleEvent) (op : Text) :
    (events.map (·.without op)).filter (·.candidateOperationIds ≠ []) =
      survivors events (events.map (·.struck op)) := by
  induction events with
  | nil => rfl
  | cons pending _ ih =>
    rw [map_cons, map_cons, survivors_cons, ← ih]
    by_cases hn : pending.candidateOperationIds.filter (· ≠ op) = []
    · rw [show pending.struck op = .forsaken from if_pos hn, filter_cons_of_neg]
      · rfl
      · simpa [PendingModuleEvent.without] using hn
    · rw [show pending.struck op = .stays _ from if_neg hn, filter_cons_of_pos]
      · rfl
      · simpa [PendingModuleEvent.without] using hn

/-- The removal of an operation. -/
theorem remove_step (h : RegistrySound s) (readings : Readings ext) (op moduleName : Text) :
    ∃ fates arrived, JournalStep readings s (Mutation.left (remove op s)) moduleName
      (.remove op) fates arrived := by
  obtain ⟨_, hok, -, hj⟩ := removeRecord_result h.journals op
  rw [removeOperationFromPendingModuleEvents_ok h.journals op] at hj
  refine ⟨_, _, .removed ?_⟩
  rw [remove, hok, left_ok, ← Except.ok.inj hj]
  unfold Journals.eventsOf
  rw [Table.find?_filter, Table.find?_modifyAll]
  cases s.pendingModuleEvents.find? moduleName with
  | none => rfl
  | some journal =>
    have hleft : ((journal.withoutOperation op).recounted).events =
        survivors journal.events (journal.events.map (·.struck op)) :=
      withoutOperation_events journal.events op
    simp only [Option.map_some, Option.getD_some, ← hleft]
    by_cases hnil : ((journal.withoutOperation op).recounted).events = []
    · simp [Option.filter, hnil]
    · simp [Option.filter, hnil]

/-- **Every call is a step of every journal.** -/
theorem perform_step (h : RegistrySound s) (readings : Readings ext) (call : RegistryCall ext)
    (moduleName : Text) : ∃ fates arrived,
      JournalStep readings s (Mutation.left (call.perform readings s)) moduleName call fates
        arrived := by
  cases call with
  | insert op req now =>
    change ∃ fates arrived, JournalStep readings s (Mutation.left (insert readings _ s)) _ _
      fates arrived
    rcases insert_result readings (runningRuntimeOperationRecord op req now) h.journals
      with ⟨e, heq⟩ | ⟨swept, -, hsw, ⟨e, heq⟩ | ⟨expiry, final, hnew, -, heq, hfin⟩⟩
    all_goals rw [heq]
    · exact JournalStep.of_same rfl
    · exact JournalStep.of_same hsw.journals
    · exact JournalStep.of_same (hfin.journals.trans ((track_journals _ _ _).trans hsw.journals))
  | transition op change =>
    rw [left_transition]
    exact transition_step h readings op change moduleName
  | ingestModuleEvent event =>
    rw [left_ingest]
    exact ingest_step h readings event moduleName
  | inspect =>
    obtain ⟨_, hsweep, hsw, -⟩ := h.sweep readings.now readings.monotonicNow
    rw [left_inspect, inspect, bind_of_ok hsweep]
    exact JournalStep.of_same hsw.journals
  | remove op => exact remove_step h readings op moduleName

/-! ### Runs -/

/-- **The logs that follow the calls of a run.** -/
inductive Chronicle : List (Readings ext × RegistryCall ext) → (Text → EventLog) → Prop
  | initial : Chronicle [] fun _ => ⟨[], 0, []⟩
  | call {calls : List (Readings ext × RegistryCall ext)} {log : Text → EventLog}
      {readings : Readings ext} {call : RegistryCall ext} {fates : Text → List EventFate}
      {arrived : Text → List PendingModuleEvent} (hlog : Chronicle calls log)
      (hstep : ∀ moduleName, JournalStep readings ((initial ext).run calls)
        ((initial ext).run (calls ++ [(readings, call)])) moduleName call
        (fates moduleName) (arrived moduleName)) :
      Chronicle (calls ++ [(readings, call)]) fun moduleName =>
        (log moduleName).advance calls.length (fates moduleName) (arrived moduleName)

theorem run_append_one (s : RegistryState ext) (calls : List (Readings ext × RegistryCall ext))
    (readings : Readings ext) (call : RegistryCall ext) :
    s.run (calls ++ [(readings, call)]) = Mutation.left (call.perform readings (s.run calls)) :=
  foldl_concat _ _ _ _

/-- Every run has a chronicle. -/
theorem exists_chronicle (calls : List (Readings ext × RegistryCall ext)) :
    ∃ log, Chronicle calls log := by
  induction calls using List.reverseRecOn with
  | nil => exact ⟨_, .initial⟩
  | append_singleton calls last ih =>
    obtain ⟨_, hlog⟩ := ih
    obtain ⟨readings, call⟩ := last
    have hsteps := perform_step (run_registrySound calls) readings call
    simp only [← run_append_one] at hsteps
    choose fates arrived hstep using hsteps
    exact ⟨_, .call hlog hstep⟩

variable {log : Text → EventLog}

/-- A log lists the events of the journals, and accounts for all that have ever been there. -/
theorem Chronicle.accounted (h : Chronicle calls log) (moduleName : Text) :
    (log moduleName).waiting.map Prod.snd =
        ((RegistryState.initial ext).run calls).pendingModuleEvents.eventsOf moduleName ∧
      (log moduleName).Accounted := by
  induction h with
  | initial => exact ⟨rfl, .nil⟩
  | call _ hstep ih =>
    obtain ⟨hwait, hacc⟩ := ih
    obtain ⟨hlen, hevs⟩ := (hstep moduleName).result
    refine ⟨?_, hacc.advance ?_ _ _⟩
    · rw [EventLog.advance_events, hwait, hevs]
    · rw [hlen, ← hwait, length_map]

/-! ### Why an event has left -/

/-- **Why an event has left its journal.** -/
inductive Leaves (readings : Readings ext) (before after : RegistryState ext)
    (pending : PendingModuleEvent) : RegistryCall ext → EventFate → Prop
  /-- It was for the operation whose record it has been applied to. -/
  | applied {operationId : Text} {change : RuntimeOperationTransition}
      {record record' : RuntimeOperationRecord ext}
      (hcandidate : operationId ∈ pending.candidateOperationIds)
      (hid : record.operation.operationId = operationId)
      (happlied : applyDeferredModuleEvent readings.clock pending.event record = .ok true record') :
      Leaves readings before after pending (.transition operationId change) (.applied operationId)
  /-- Its last candidate has been removed. -/
  | removed {operationId : Text}
      (hlast : ∀ candidate ∈ pending.candidateOperationIds, candidate = operationId) :
      Leaves readings before after pending (.remove operationId) .forsaken
  /-- It was not for its last candidate. -/
  | uncorrelated {operationId : Text} {change : RuntimeOperationTransition}
      {record record' : RuntimeOperationRecord ext}
      (hlast : ∀ candidate ∈ pending.candidateOperationIds, candidate = operationId)
      (hid : record.operation.operationId = operationId)
      (happlied : applyDeferredModuleEvent readings.clock pending.event record =
        .ok false record') :
      Leaves readings before after pending (.transition operationId change) .forsaken
  /-- There was no room for it, which is recorded on all the operations it was kept for. -/
  | overflowed {event : ModuleEventEnvelope}
      (hevidence : ∀ operationId ∈ pending.candidateOperationIds,
        OverflowRecorded readings.clock before after pending.event operationId) :
      Leaves readings before after pending (.ingestModuleEvent event) .overflowed

theorem mem_zip_map {α β : Type} {l : List α} {f : α → β} {pair : α × β}
    (h : pair ∈ l.zip (l.map f)) : pair.1 ∈ l ∧ pair.2 = f pair.1 := by
  rw [zip_map_right, mem_map] at h
  obtain ⟨⟨_, _⟩, hm, rfl⟩ := h
  rw [zip_eq_zipWith, zipWith_self, mem_map] at hm
  obtain ⟨_, hc, heq⟩ := hm
  cases heq
  exact ⟨hc, rfl⟩

/-- The fate of an event in a replay is its own, with the record as the replay has found it. -/
theorem replayFates_mem
    {R : RuntimeOperationRecord ext → RuntimeOperationRecord ext → Prop} [Std.Refl R] [IsTrans _ R]
    (hr : ∀ {pending : PendingModuleEvent} {fate : EventFate}
      {r r' : RuntimeOperationRecord ext},
      replayFate clock op pending r = .ok fate r' → R r r')
    (h : replayFates clock op events r = .ok fates r')
    (hm : (pending, fate) ∈ events.zip fates) :
    ∃ found left, R r found ∧ replayFate clock op pending found = .ok fate left := by
  induction events generalizing r fates with
  | nil => cases hm
  | cons _ _ ih =>
    simp only [replayFates, bind_ok_iff, pure_ok_iff] at h
    obtain ⟨_, middle, hfate, _, _, hfates, rfl, rfl⟩ := h
    rcases mem_cons.1 hm with heq | hm
    · cases heq
      exact ⟨r, middle, Std.Refl.refl r, hfate⟩
    · obtain ⟨found, left, hfound, hleft⟩ := ih hfates hm
      exact ⟨found, left, Trans.trans (hr hfate) hfound, hleft⟩

theorem PendingModuleEvent.struck_leaves (hl : pending.follow (pending.struck op) = none) :
    pending.struck op = .forsaken ∧ ∀ cand ∈ pending.candidateOperationIds, cand = op := by
  unfold PendingModuleEvent.struck at hl ⊢
  split_ifs at hl ⊢ with hn
  · refine ⟨rfl, fun cand hcand => ?_⟩
    simpa using filter_eq_nil_iff.1 hn cand hcand
  · cases hl

/-- **An event that leaves its journal has a reason.** -/
theorem JournalStep.leaves (h : JournalStep readings before after moduleName call fates arrived)
    (hm : (pending, fate) ∈ (before.pendingModuleEvents.eventsOf moduleName).zip fates)
    (hl : pending.follow fate = none) : Leaves readings before after pending call fate := by
  cases h with
  | untouched =>
    obtain ⟨-, hfate⟩ := mem_zip_map hm
    dsimp only at hfate
    rw [hfate] at hl
    cases hl
  | removed =>
    obtain ⟨-, hfate⟩ := mem_zip_map hm
    dsimp only at hfate
    rw [hfate] at hl ⊢
    obtain ⟨hforsaken, hlast⟩ := PendingModuleEvent.struck_leaves hl
    rw [hforsaken]
    exact .removed hlast
  | replayed _ hf _ hap hr =>
    obtain ⟨found, _, hfound, hfate⟩ := replayFates_mem replayFate_changed hr hm
    have hid : found.operation.operationId = _ := hfound.operationId.trans
      (hap.changed.operationId.trans (find?_eq_some.1 hf).2)
    rcases replayFate_eq_ok hfate with ⟨-, rfl, -⟩ | ⟨applied, hcand, ha, rfl⟩
    · cases hl
    · cases applied with
      | true => exact .applied hcand hid ha
      | false =>
        obtain ⟨hforsaken, hlast⟩ := PendingModuleEvent.struck_leaves hl
        rw [if_neg Bool.false_ne_true, hforsaken]
        exact .uncorrelated hlast hid ha
  | deferred _ _ hb _ he =>
    rw [hb, zip_append (by simp)] at hm
    rcases mem_append.1 hm with hevicted | hkept
    · obtain ⟨hevicted, hfate⟩ := mem_zip_map hevicted
      dsimp only at hevicted hfate
      rw [hfate]
      exact .overflowed (he pending hevicted)
    · obtain ⟨-, hfate⟩ := mem_zip_map hkept
      dsimp only at hfate
      rw [hfate] at hl
      cases hl

theorem mem_departures {time : ℕ} {waiting : List Numbered}
    (h : departure ∈ departures time (waiting.zip fates)) :
    departure.time = time ∧ departure.pending.follow departure.fate = none ∧
      (departure.pending, departure.fate) ∈ (waiting.map Prod.snd).zip fates := by
  obtain ⟨_, hm, heq⟩ := mem_filterMap.1 h
  split_ifs at heq with hl
  · cases heq
    refine ⟨rfl, hl, ?_⟩
    rw [zip_map_left]
    exact mem_map_of_mem hm

/-- An event that has left did so in a step of its journal. -/
theorem Chronicle.step (h : Chronicle calls log)
    {moduleName : Text} (hm : departure ∈ (log moduleName).departed) :
    ∃ readings call fates arrived, calls[departure.time]? = some (readings, call) ∧
      JournalStep readings ((RegistryState.initial ext).run (calls.take departure.time))
        ((RegistryState.initial ext).run (calls.take (departure.time + 1))) moduleName call fates
        arrived ∧
      (departure.pending, departure.fate) ∈ List.zip (((RegistryState.initial ext).run
        (calls.take departure.time)).pendingModuleEvents.eventsOf moduleName) fates ∧
      departure.pending.follow departure.fate = none := by
  induction h with
  | initial => cases hm
  | @call calls _ readings call fates arrived hlog hstep ih =>
    rcases mem_append.1 hm with he | hnow
    · obtain ⟨readings', call', fates', arrived', hc, _⟩ := ih he
      have htime : departure.time < calls.length := (List.getElem?_eq_some_iff.1 hc).1
      refine ⟨readings', call', fates', arrived', ?_, ?_⟩
      · rw [getElem?_append_left htime, hc]
      · rwa [take_append_of_le_length htime.le, take_append_of_le_length htime]
    · obtain ⟨htime, hl, hzip⟩ := mem_departures hnow
      rw [(hlog.accounted moduleName).1] at hzip
      refine ⟨readings, call, fates moduleName, arrived moduleName, ?_, ?_, ?_, hl⟩
      · rw [htime, getElem?_concat_length]
      · rw [htime, take_left, take_of_length_le (by simp)]
        exact hstep moduleName
      · rwa [htime, take_left]

/-- **Every event that has left had a reason.** -/
theorem Chronicle.departed (h : Chronicle calls log) (moduleName : Text) (departure : Departure)
    (hm : departure ∈ (log moduleName).departed) :
    ∃ readings call, calls[departure.time]? = some (readings, call) ∧
      Leaves readings ((RegistryState.initial ext).run (calls.take departure.time))
        ((RegistryState.initial ext).run (calls.take (departure.time + 1))) departure.pending call
        departure.fate := by
  obtain ⟨readings, call, _, _, hc, hstep, hzip, hl⟩ := h.step hm
  exact ⟨readings, call, hc, hstep.leaves hzip hl⟩

/-! ### The account -/

/-- **The journals are in order, and nothing is lost or applied twice.** After any calls:

* whoever a deferred event is kept for is an operation that still runs and still waits for the
  module, and a journal keeps to its limits and knows its size;
* there is a log of the run, and any log of the run lists in order what is in the journals, and
  numbers all that was ever deferred, so that each event is either waiting or has departed, and has
  departed once;
* an event has departed because it was applied, to one of its candidates; because it has lost its
  last candidate; or because it was evicted, and then this is recorded on every candidate that it
  had left. -/
theorem deferred_events_accounted (calls : List (Readings ext × RegistryCall ext)) :
    (∀ journal ∈ ((initial ext).run calls).pendingModuleEvents,
      (∀ pending ∈ journal.events, ∀ operationId ∈ pending.candidateOperationIds,
        ((initial ext).run calls).Awaits journal.moduleName operationId) ∧
      journal.events.length ≤ 32 ∧
      journal.retainedBytes = (journal.events.map (·.eventBytes)).sum ∧
      journal.retainedBytes ≤ 256 * 1024) ∧
    (∃ log, Chronicle calls log) ∧
    ∀ log, Chronicle calls log → ∀ moduleName, (log moduleName).waiting.map Prod.snd =
        ((initial ext).run calls).pendingModuleEvents.eventsOf moduleName ∧
      ((log moduleName).waiting.map Prod.fst ++ (log moduleName).departed.map Departure.number).Perm
        (List.range (log moduleName).arrivals) ∧
      ∀ departure ∈ (log moduleName).departed, ∃ readings call,
        calls[departure.time]? = some (readings, call) ∧
        Leaves readings ((initial ext).run (calls.take departure.time))
          ((initial ext).run (calls.take (departure.time + 1))) departure.pending call
          departure.fate := by
  refine ⟨fun journal hmem => ?_, exists_chronicle calls, fun _ hlog moduleName => ?_⟩
  · have hsound := (run_registrySound calls).journals journal hmem
    exact ⟨hsound.candidates, hsound.count, hsound.weighed, hsound.bytes⟩
  · obtain ⟨hwaiting, haccounted⟩ := hlog.accounted moduleName
    exact ⟨hwaiting, haccounted, hlog.departed moduleName⟩

end Chronicle

end LogosInspector.Operations
