import LogosInspector.Operations.Settlement
import LogosInspector.Operations.Sweeps

/-!
# What becomes of deferred events

A deferred event waits in the journal of its module. It leaves the journal when it is applied to one
of its candidates, when it loses the last of them, or when room is needed: these are its *fates*
(`EventFate`). This file says what the replay of a journal does to its events, as a function from
the events to their fates (`replayFates`), and that the loop of the registry comes to just this
(`replayPendingModuleEvents_cases`): what stays is put back in its order, nothing is counted twice,
and if the replay fails only the journal and the record that it is about have been touched.
-/

namespace LogosInspector.Operations

open Mutation

section Replay

variable {ext : OperationExternals} {clock : WallClock ext}

/-! ### Fates -/

/-- **What becomes of a deferred event in a call.** -/
inductive EventFate
  /-- It goes on waiting, for these candidates. -/
  | stays (candidateOperationIds : List Text)
  /-- It was for this operation. -/
  | applied (operationId : Text)
  /-- Its last candidate was taken off. -/
  | forsaken
  /-- It was evicted, to make room for another. -/
  | overflowed
  deriving DecidableEq

/-- The deferred event in the journal after a call, if it is there. -/
def PendingModuleEvent.follow (pending : PendingModuleEvent) : EventFate → Option PendingModuleEvent
  | .stays candidateOperationIds => some { pending with candidateOperationIds }
  | .applied _ | .forsaken | .overflowed => none

/-- A deferred event without one of its candidates. -/
def PendingModuleEvent.without (pending : PendingModuleEvent) (operationId : Text) :
    PendingModuleEvent :=
  { pending with
    candidateOperationIds := pending.candidateOperationIds.filter (· ≠ operationId) }

/-- The fate of an event that a candidate is taken off. -/
def PendingModuleEvent.struck (pending : PendingModuleEvent) (operationId : Text) : EventFate :=
  if pending.candidateOperationIds.filter (· ≠ operationId) = [] then .forsaken
  else .stays (pending.candidateOperationIds.filter (· ≠ operationId))

/-- The fate of an event that nothing happens to. -/
def PendingModuleEvent.spared (pending : PendingModuleEvent) : EventFate :=
  .stays pending.candidateOperationIds

/-- What is left of a journal. -/
def survivors (events : List PendingModuleEvent) (fates : List EventFate) :
    List PendingModuleEvent :=
  (List.zipWith PendingModuleEvent.follow events fates).reduceOption

@[simp] theorem survivors_nil (fates : List EventFate) : survivors [] fates = [] := rfl

@[simp] theorem survivors_cons (pending : PendingModuleEvent) (events : List PendingModuleEvent)
    (fate : EventFate) (fates : List EventFate) :
    survivors (pending :: events) (fate :: fates) =
      (pending.follow fate).toList ++ survivors events fates := by
  unfold survivors
  rw [List.zipWith_cons_cons]
  cases pending.follow fate <;> simp [List.reduceOption]

theorem survivors_spared (events : List PendingModuleEvent) :
    survivors events (events.map PendingModuleEvent.spared) = events := by
  induction events with
  | nil => rfl
  | cons _ _ ih => simp [ih, PendingModuleEvent.follow, PendingModuleEvent.spared]

/-! ### Replaying -/

/-- Replay an event to an operation. -/
def replayFate (clock : WallClock ext) (operationId : Text) (pending : PendingModuleEvent) :
    Mutation (RuntimeOperationRecord ext) EventFate :=
  if operationId ∈ pending.candidateOperationIds then do
    let applied ← applyDeferredModuleEvent clock pending.event
    pure (if applied then .applied operationId else pending.struck operationId)
  else pure pending.spared

/-- **Replay a journal to an operation.** -/
def replayFates (clock : WallClock ext) (operationId : Text) :
    List PendingModuleEvent → Mutation (RuntimeOperationRecord ext) (List EventFate)
  | [] => pure []
  | pending :: events => do
    let fate ← replayFate clock operationId pending
    let fates ← replayFates clock operationId events
    pure (fate :: fates)

variable {r r' : RuntimeOperationRecord ext} {op moduleName : Text}
  {pending : PendingModuleEvent} {fate : EventFate} {events : List PendingModuleEvent}
  {fates : List EventFate}

/-- What replaying events does to a record, however it ends: it only changes its operation. -/
theorem applyDeferredModuleEvent_changed {event : ModuleEventEnvelope} {applied : Bool}
    (h : applyDeferredModuleEvent clock event r = .ok applied r') :
    Changed (fun _ => False) r r' :=
  ((changed_upheld _).keeps_applyDeferredModuleEvent event r).of_ok h

theorem replayFate_eq_ok (h : replayFate clock op pending r = .ok fate r') :
    (op ∉ pending.candidateOperationIds ∧ fate = pending.spared ∧ r' = r) ∨
      ∃ applied, op ∈ pending.candidateOperationIds ∧
        applyDeferredModuleEvent clock pending.event r = .ok applied r' ∧
        fate = if applied then .applied op else pending.struck op := by
  unfold replayFate at h
  split_ifs at h with hcand
  · simp only [bind_ok_iff, pure_ok_iff] at h
    obtain ⟨applied, _, ha, rfl, rfl⟩ := h
    exact .inr ⟨applied, hcand, ha, rfl⟩
  · obtain ⟨rfl, rfl⟩ := pure_ok_iff.1 h
    exact .inl ⟨hcand, rfl, rfl⟩

theorem replayFate_changed (h : replayFate clock op pending r = .ok fate r') :
    Changed (fun _ => False) r r' := by
  rcases replayFate_eq_ok h with ⟨-, -, rfl⟩ | ⟨_, -, ha, -⟩
  · exact Std.Refl.refl _
  · exact applyDeferredModuleEvent_changed ha

theorem replayFates_changed (h : replayFates clock op events r = .ok fates r') :
    Changed (fun _ => False) r r' := by
  induction events generalizing r fates with
  | nil =>
    obtain ⟨-, rfl⟩ := pure_ok_iff.1 h
    exact Std.Refl.refl _
  | cons _ _ ih =>
    simp only [replayFates, bind_ok_iff, pure_ok_iff] at h
    obtain ⟨_, _, hfate, _, _, hfates, -, rfl⟩ := h
    exact Trans.trans (replayFate_changed hfate) (ih hfates)

theorem replayFates_length (h : replayFates clock op events r = .ok fates r') :
    fates.length = events.length := by
  induction events generalizing r fates with
  | nil =>
    obtain ⟨rfl, -⟩ := pure_ok_iff.1 h
    rfl
  | cons _ _ ih =>
    simp only [replayFates, bind_ok_iff, pure_ok_iff] at h
    obtain ⟨_, _, -, _, _, hfate, rfl, rfl⟩ := h
    rw [List.length_cons, List.length_cons, ih hfate]

/-! ### The journal that is left -/

namespace PendingModuleEventJournal

/-- The journal with more events at its end. -/
def append (journal : PendingModuleEventJournal) (events : List PendingModuleEvent) :
    PendingModuleEventJournal :=
  { journal with
    events := journal.events ++ events
    retainedBytes := journal.retainedBytes + (events.map (·.eventBytes)).sum }

/-- There is room for more events. -/
def Fits (journal : PendingModuleEventJournal) (events : List PendingModuleEvent) : Prop :=
  journal.events.length + events.length ≤ maxPendingModuleEvents ∧
    journal.retainedBytes + (events.map (·.eventBytes)).sum ≤ maxPendingModuleEventBytes

variable {journal : PendingModuleEventJournal} {pending : PendingModuleEvent}
  {events : List PendingModuleEvent}

@[simp] theorem append_nil (journal : PendingModuleEventJournal) : journal.append [] = journal := by
  simp [append]

theorem append_append (journal : PendingModuleEventJournal)
    (events events' : List PendingModuleEvent) :
    (journal.append events).append events' = journal.append (events ++ events') := by
  simp [append, Nat.add_assoc]

section

variable (h : journal.Fits (pending :: events))

include h

theorem Fits.tail : journal.Fits events := by
  obtain ⟨hcnt, hbytes⟩ := h
  simp only [List.length_cons, List.map_cons, List.sum_cons] at hcnt hbytes
  exact ⟨by omega, by omega⟩

/-- An event that is put back takes the room that it had. -/
theorem Fits.append (pending' : PendingModuleEvent)
    (hs : pending'.eventBytes = pending.eventBytes) : (journal.append [pending']).Fits events := by
  obtain ⟨hcnt, hbytes⟩ := h
  simp only [List.length_cons, List.map_cons, List.sum_cons] at hcnt hbytes
  constructor
  · simp only [PendingModuleEventJournal.append, List.length_append, List.length_singleton]
    omega
  · simp only [PendingModuleEventJournal.append, List.map_cons, List.map_nil, List.sum_cons,
      List.sum_nil]
    omega

theorem Fits.pushBack (pending' : PendingModuleEvent)
    (hs : pending'.eventBytes = pending.eventBytes) :
    journal.pushBack pending' = .ok (journal.append [pending']) := by
  obtain ⟨hcnt, hbytes⟩ := h
  simp only [List.length_cons, List.map_cons, List.sum_cons] at hcnt hbytes
  refine bind_eq_ok.2 ⟨(), reject_eq_ok.2 (by omega),
    bind_eq_ok.2 ⟨(), reject_eq_ok.2 (by omega), ?_⟩⟩
  simp [PendingModuleEventJournal.append, pure, Except.pure]

end

theorem Fits.foldlM_pushBack (h : journal.Fits events) :
    events.foldlM PendingModuleEventJournal.pushBack journal = .ok (journal.append events) := by
  induction events generalizing journal with
  | nil => simp [pure, Except.pure]
  | cons _ _ ih =>
    rw [List.foldlM_cons]
    refine bind_eq_ok.2 ⟨_, h.pushBack _ rfl, ?_⟩
    rw [ih (h.append _ rfl), append_append]
    rfl

end PendingModuleEventJournal

open PendingModuleEventJournal

/-- The registry with a record replaced, and with what a replay has left of a journal. -/
def RegistryState.replayed (state : RegistryState ext) (record : RuntimeOperationRecord ext)
    (journal : PendingModuleEventJournal) : RegistryState ext :=
  { state with
    records := state.records.insert record
    pendingModuleEvents :=
      if journal.events = [] then state.pendingModuleEvents
      else state.pendingModuleEvents.insert journal }

/-- **What a replay that fails can have touched**: the record and the journal that it is about. -/
structure ReplayFailed (moduleName operationId : Text) (before after : RegistryState ext) :
    Prop where
  records : ∀ other, other ≠ operationId → after.records.find? other = before.records.find? other
  journals : ∀ other, other ≠ moduleName →
    after.pendingModuleEvents.find? other = before.pendingModuleEvents.find? other
  terminalRecords : after.terminalRecords = before.terminalRecords
  bytes : after.retainedTerminalPayloadBytes = before.retainedTerminalPayloadBytes

theorem ReplayFailed.refl (moduleName op : Text) (s : RegistryState ext) :
    ReplayFailed moduleName op s s :=
  ⟨fun _ _ => rfl, fun _ _ => rfl, rfl, rfl⟩

theorem ReplayFailed.trans {a b c : RegistryState ext}
    (h : ReplayFailed moduleName op a b) (h' : ReplayFailed moduleName op b c) :
    ReplayFailed moduleName op a c where
  records other hne := (h'.records other hne).trans (h.records other hne)
  journals other hne := (h'.journals other hne).trans (h.journals other hne)
  terminalRecords := h'.terminalRecords.trans h.terminalRecords
  bytes := h'.bytes.trans h.bytes

theorem ReplayFailed.insertRecord (s : RegistryState ext) (hid : r.operation.operationId = op) :
    ReplayFailed moduleName op s
      { s with records := s.records.insert r } := by
  refine ⟨fun _ hne => ?_, fun _ _ => rfl, rfl, rfl⟩
  rw [Table.find?_insert, if_neg]
  rw [hid]
  exact hne

theorem ReplayFailed.insertJournal (s : RegistryState ext)
    {journal : PendingModuleEventJournal} (hname : journal.moduleName = moduleName) :
    ReplayFailed moduleName op s
      { s with pendingModuleEvents := s.pendingModuleEvents.insert journal } := by
  refine ⟨fun _ _ => rfl, fun _ hne => ?_, rfl, rfl⟩
  rw [Table.find?_insert, if_neg]
  rw [hname]
  exact hne

theorem ReplayFailed.eraseJournal (moduleName op : Text) (s : RegistryState ext) :
    ReplayFailed moduleName op s
      { s with pendingModuleEvents := s.pendingModuleEvents.erase moduleName } := by
  refine ⟨fun _ _ => rfl, fun _ hne => ?_, rfl, rfl⟩
  rw [Table.find?_erase, if_neg hne]

/-! ### The loop -/

section Loop

variable {s : RegistryState ext} {op : Text} {r r' : RuntimeOperationRecord ext}
  {events : List PendingModuleEvent} {retained : PendingModuleEventJournal} {fates : List EventFate}
  {e : String}

theorem onRecords_mutateRecord_of_ok {α : Type} {m : Mutation (RuntimeOperationRecord ext) α}
    {a : α}
    (h : m r = .ok a r') :
    onRecords (mutateRecord r m) s = .ok a { s with records := s.records.insert r' } := by
  simp [onRecords, Mutation.zoom, mutateRecord, h]

theorem onRecords_mutateRecord_of_error {α : Type} {m : Mutation (RuntimeOperationRecord ext) α}
    (h : m r = .error e r') :
    onRecords (mutateRecord r m) s = .error e { s with records := s.records.insert r' } := by
  simp [onRecords, Mutation.zoom, mutateRecord, h]

theorem find?_insert_changed {P : Text → Prop} (hf : s.records.find? op = some r)
    (h : Changed P r r') :
    (s.records.insert r').find? op = some r' := by
  rw [Table.find?_insert, if_pos]
  exact (Table.find?_eq_some.1 hf).2.symm.trans h.operationId.symm

theorem insert_insert_changed {P : Text → Prop} {records : Records ext}
    (h : Changed P r r') : (records.insert r).insert r' = records.insert r' :=
  Table.insert_insert h.operationId.symm

/-- One event of the loop: what stays of it is put back, and the rest is replayed to the record
that it leaves. -/
theorem replayEvents_cons {middle : RuntimeOperationRecord ext} (hf : s.records.find? op = some r)
    (hfits : retained.Fits (pending :: events))
    (h : replayFate clock op pending r = .ok fate middle) :
    (retained.append (pending.follow fate).toList).Fits events ∧
      replayEvents clock op (pending :: events) retained s =
        replayEvents clock op events (retained.append (pending.follow fate).toList)
          { s with records := s.records.insert middle } := by
  rw [replayEvents]
  rcases replayFate_eq_ok h with ⟨hcand, rfl, rfl⟩ | ⟨applied, hcand, ha, rfl⟩
  · -- the event is not for this operation, and is put back as it is
    rw [if_pos hcand, bind_of_ok (ofExcept_of_ok (hfits.pushBack _ rfl)),
      Table.insert_self (Table.find?_eq_some.1 hf).1]
    exact ⟨hfits.append _ rfl, rfl⟩
  · rw [if_neg (not_not.2 hcand), bind_of_ok (get_eq_ok.2 ⟨rfl, rfl⟩), hf]
    dsimp only
    rw [Mutation.handle_of_ok (onRecords_mutateRecord_of_ok ha)]
    cases applied with
    | true =>
      rw [if_pos rfl, if_pos (.inl rfl), PendingModuleEvent.follow, Option.toList_none, append_nil]
      exact ⟨hfits.tail, rfl⟩
    | false =>
      rw [if_neg Bool.false_ne_true, PendingModuleEvent.struck]
      -- without this operation, the event stays if another may want it
      by_cases hn : pending.candidateOperationIds.filter (· ≠ op) = []
      · rw [if_pos hn, if_pos (.inr hn), PendingModuleEvent.follow, Option.toList_none, append_nil]
        exact ⟨hfits.tail, rfl⟩
      · rw [if_neg hn, if_neg (not_or.2 ⟨Bool.false_ne_true, hn⟩)]
        exact ⟨hfits.append (pending.without op) rfl,
          bind_of_ok (ofExcept_of_ok (hfits.pushBack (pending.without op) rfl))⟩

/-- **The loop of the registry does what `replayFates` says**, with the events that stay put back
one by one. -/
theorem replayEvents_ok (hf : s.records.find? op = some r) (hfits : retained.Fits events)
    (h : replayFates clock op events r = .ok fates r') :
    replayEvents clock op events retained s =
      .ok () (s.replayed r' (retained.append (survivors events fates))) := by
  induction events generalizing s r retained fates with
  | nil =>
    obtain ⟨-, rfl⟩ := pure_ok_iff.1 h
    have hself : s.records.insert r = s.records :=
      Table.insert_self (Table.find?_eq_some.1 hf).1
    rw [survivors_nil, append_nil]
    unfold replayEvents RegistryState.replayed
    rw [hself]
    change EStateM.Result.ok () _ = _
    split_ifs <;> rfl
  | cons pending events ih =>
    simp only [replayFates, bind_ok_iff, pure_ok_iff] at h
    obtain ⟨_, middle, hfate, fates', last, hfates, rfl, rfl⟩ := h
    obtain ⟨hfits', hcons⟩ := replayEvents_cons hf hfits hfate
    rw [hcons, ih (find?_insert_changed hf (replayFate_changed hfate)) hfits' hfates,
      survivors_cons,
      append_append]
    unfold RegistryState.replayed
    dsimp only
    rw [insert_insert_changed (replayFates_changed hfates)]

theorem replayFate_error (h : replayFate clock op pending r = .error e r') :
    op ∈ pending.candidateOperationIds ∧ r' = r ∧
      applyDeferredModuleEvent clock pending.event r = .error e r := by
  unfold replayFate at h
  split_ifs at h with hcand
  · rcases bind_eq_error.1 h with ha | ⟨_, _, -, hpure⟩
    · have hs := restoring_error ha
      subst hs
      exact ⟨hcand, rfl, ha⟩
    · cases hpure
  · cases h

/-- **A replay that fails** puts the event that it has failed at back into the journal, with those
that are left. -/
theorem replayEvents_error (hf : s.records.find? op = some r) (hfits : retained.Fits events)
    (h : replayFates clock op events r = .error e r') :
    ∃ failed, replayEvents clock op events retained s = .error e failed ∧
      ReplayFailed retained.moduleName op s failed := by
  induction events generalizing s r retained with
  | nil => cases h
  | cons pending events ih =>
    obtain ⟨_, hid⟩ := Table.find?_eq_some.1 hf
    rcases bind_eq_error.1 h with hfate | ⟨_, middle, hfate, hrest⟩
    · obtain ⟨hcand, rfl, ha⟩ := replayFate_error hfate
      refine ⟨{ s with
        records := s.records.insert r'
        pendingModuleEvents :=
          s.pendingModuleEvents.insert (retained.append (pending :: events)) }, ?_, ?_⟩
      · unfold replayEvents
        rw [if_neg (not_not.2 hcand), bind_of_ok (get_eq_ok.2 ⟨rfl, rfl⟩), hf]
        dsimp only
        rw [Mutation.handle_of_error (onRecords_mutateRecord_of_error ha),
          bind_of_ok (ofExcept_of_ok hfits.foldlM_pushBack),
          @bind_of_ok _ _ _ _ _ _ () _ (modify_eq_ok.2 rfl)]
        rfl
      · exact (ReplayFailed.insertRecord s hid).trans (.insertJournal _ rfl)
    · replace hrest : replayFates clock op events middle = .error e r' := by
        rcases bind_eq_error.1 hrest with hrest | ⟨_, _, -, hpure⟩
        · exact hrest
        · cases hpure
      have hch := replayFate_changed hfate
      obtain ⟨hfits', hcons⟩ := replayEvents_cons hf hfits hfate
      obtain ⟨failed, hfail, ht⟩ :=
        @ih { s with records := s.records.insert middle } _ _
          (find?_insert_changed hf hch) hfits' hrest
      exact ⟨failed, hcons.trans hfail,
        (ReplayFailed.insertRecord s (hch.operationId.trans hid)).trans ht⟩

/-! ### The replay -/

/-- The journals with other events for a module. -/
def Journals.replace (journals : Journals) (moduleName : Text) (events : List PendingModuleEvent) :
    Journals :=
  if events = [] then journals.erase moduleName
  else journals.insert ((empty moduleName).append events)

theorem Journals.eventsOf_insert (journals : Journals) (journal : PendingModuleEventJournal)
    (moduleName : Text) : Journals.eventsOf (journals.insert journal) moduleName =
      if moduleName = journal.moduleName then journal.events else journals.eventsOf moduleName := by
  unfold Journals.eventsOf
  rw [Table.find?_insert]
  split_ifs <;> rfl

theorem Journals.eventsOf_replace (journals : Journals) (moduleName other : Text)
    (events : List PendingModuleEvent) : (journals.replace moduleName events).eventsOf other =
      if other = moduleName then events else journals.eventsOf other := by
  unfold Journals.replace
  by_cases hnil : events = []
  · rw [if_pos hnil]
    unfold Journals.eventsOf
    rw [Table.find?_erase]
    split_ifs with ho
    · exact hnil.symm
    · rfl
  · rw [if_neg hnil, Journals.eventsOf_insert]
    rfl

/-- A journal in order can be replayed. -/
theorem JournalsSound.fits (h : JournalsSound s) (moduleName : Text) :
    (empty moduleName).Fits (s.pendingModuleEvents.eventsOf moduleName) := by
  unfold Journals.eventsOf
  cases hf : s.pendingModuleEvents.find? moduleName with
  | none => exact ⟨by simp [empty], by simp [empty]⟩
  | some journal =>
    have hsound := h journal (Table.find?_eq_some.1 hf).1
    have hbytes := hsound.bytes
    rw [hsound.weighed] at hbytes
    exact ⟨by simpa [empty] using hsound.count, by simpa [empty] using hbytes⟩

/-- **What a replay comes to.** -/
theorem replayPendingModuleEvents_cases (hf : s.records.find? op = some r)
    (hfits : (empty moduleName).Fits (s.pendingModuleEvents.eventsOf moduleName)) :
    (∃ fates r', replayFates clock op (s.pendingModuleEvents.eventsOf moduleName) r = .ok fates r' ∧
      replayPendingModuleEvents clock moduleName op s = .ok ()
        { s with
          records := s.records.insert r'
          pendingModuleEvents := s.pendingModuleEvents.replace moduleName
            (survivors (s.pendingModuleEvents.eventsOf moduleName) fates) }) ∨
    ∃ e failed, replayPendingModuleEvents clock moduleName op s = .error e failed ∧
      ReplayFailed moduleName op s failed := by
  unfold replayPendingModuleEvents
  rw [bind_of_ok (get_eq_ok.2 ⟨rfl, rfl⟩), hf]
  cases hcap : ((some r).forM fun r => ensureRecordEventCursorCapacity r
      (pendingModuleReplayCount s moduleName op)) with
  | error e =>
    refine .inr ⟨e, s, ?_, .refl _ _ _⟩
    exact bind_of_error (ofExcept_of_error rfl)
  | ok _ =>
    rw [bind_of_ok (ofExcept_of_ok rfl)]
    cases hj : s.pendingModuleEvents.find? moduleName with
    | none =>
      -- there is nothing to replay
      have hevs : s.pendingModuleEvents.eventsOf moduleName = [] := by
        simp [Journals.eventsOf, hj]
      refine .inl ⟨[], r, by rw [hevs]; rfl, ?_⟩
      have hs : s.records.insert r = s.records :=
        Table.insert_self (Table.find?_eq_some.1 hf).1
      have hn : s.pendingModuleEvents.replace moduleName [] = s.pendingModuleEvents :=
        (if_pos rfl).trans (Table.erase_of_forall (Table.find?_eq_none.1 hj))
      rw [hevs, survivors_nil, hs, hn]
      rfl
    | some journal =>
      have hevs : s.pendingModuleEvents.eventsOf moduleName = journal.events := by
        simp [Journals.eventsOf, hj]
      rw [hevs] at hfits ⊢
      dsimp only
      rw [@bind_of_ok _ _ _ _ _ _ () _ (modify_eq_ok.2 rfl),
        bind_of_ok (ofExcept_of_ok (required_eq_ok.2 (rfl : some r = _)))]
      cases hr : replayFates clock op journal.events r with
      | ok fates r' =>
        refine .inl ⟨fates, r', rfl, ?_⟩
        refine (@replayEvents_ok _ clock
          { s with pendingModuleEvents := s.pendingModuleEvents.erase moduleName } _ _ _ _ _ _
          hf hfits hr).trans ?_
        have herase : Table.insert (Table.erase s.pendingModuleEvents moduleName)
            ((empty moduleName).append (survivors journal.events fates)) =
            Table.insert s.pendingModuleEvents _ := Table.insert_erase rfl
        unfold RegistryState.replayed Journals.replace
        rw [herase]
        rfl
      | error e _ =>
        obtain ⟨failed, hfail, ht⟩ := @replayEvents_error _ clock
          { s with pendingModuleEvents := s.pendingModuleEvents.erase moduleName } _ _ _ _ _ _
          hf hfits hr
        exact .inr ⟨e, failed, hfail, (ReplayFailed.eraseJournal _ _ _).trans ht⟩

end Loop

end Replay

end LogosInspector.Operations
