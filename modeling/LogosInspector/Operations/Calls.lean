import LogosInspector.Operations.Replay

/-!
# What a call of the registry comes to

Every call begins with a sweep, and may end with one. In between, a transition changes one record
and replays the events that were deferred for it. This file takes the calls apart along these lines,
for registries whose journals are in order: what the body of a transition has done if it returns,
and that one that fails has done nothing (`transitionBody_cases`).

A module event is applied to the one operation that waits for it. If there is none it is deferred
for the operations that may yet wait for it; if its journal is full, the oldest events are evicted,
and this is recorded on all operations that they were deferred for (`Defers`). A module event that
cannot be deferred leaves the registry as it was (`deferUnclaimed_result`).
-/

namespace LogosInspector.Operations

open PendingModuleEventJournal

section Calls

open Mutation Table

variable {ext : OperationExternals} {clock : WallClock ext} {s : RegistryState ext}
  {op : Text} {change : RuntimeOperationTransition}
  {r r₁ : RuntimeOperationRecord ext}

variable {records : Records ext}

theorem TransitionApplies.changed {disposition : TransitionDisposition}
    (h : TransitionApplies clock records op change r r₁ disposition) :
    Changed (fun _ => True) r r₁ :=
  (changed_upheld fun _ => True).applies (.inr trivial) h

/-! ### Transitions -/

/-- The module whose journal is replayed after a transition. -/
def replayedModule (record : RuntimeOperationRecord ext) (change : RuntimeOperationTransition) :
    Option Text :=
  if record.operation.status.isTerminal = false ∧ transitionSettlesPendingModule change then
    record.pendingModuleName
  else none

/-- **What a replay does to the registry.** -/
inductive Replays (clock : WallClock ext) (operationId : Text) (before : RegistryState ext) :
    Option Text → RegistryState ext → Prop
  | nothing : Replays clock operationId before none before
  | journal {moduleName : Text} {record record' : RuntimeOperationRecord ext}
      {fates : List EventFate} (hfind : before.records.find? operationId = some record)
      (hreplay : replayFates clock operationId (before.pendingModuleEvents.eventsOf moduleName)
        record = .ok fates record') :
      Replays clock operationId before (some moduleName)
        { before with
          records := before.records.insert record'
          pendingModuleEvents := before.pendingModuleEvents.replace moduleName
            (survivors (before.pendingModuleEvents.eventsOf moduleName) fates) }

/-- A registry with the same operations and deferred events. -/
structure SameContent (before after : RegistryState ext) : Prop where
  records : after.records = before.records
  journals : after.pendingModuleEvents = before.pendingModuleEvents

theorem SameContent.refl (s : RegistryState ext) : SameContent s s := ⟨rfl, rfl⟩

theorem SameContent.swept {before after : RegistryState ext} (h : SameContent before after) :
    Swept before after := .of_eq h.records h.journals

/-- Putting back the record and the journal that a replay has touched. -/
theorem ReplayFailed.restored {moduleName : Text} {failed : RegistryState ext}
    (hf : s.records.find? op = some r)
    (h : ReplayFailed moduleName op s failed) :
    SameContent s
      { failed with
        records := failed.records.insert r
        pendingModuleEvents :=
          match s.pendingModuleEvents.find? moduleName with
          | some journal => failed.pendingModuleEvents.insert journal
          | none => failed.pendingModuleEvents.erase moduleName } := by
  refine ⟨ext_find? fun other => ?_, ext_find? fun other => ?_⟩
  · have hid := (find?_eq_some.1 hf).2
    rw [find?_insert, hid]
    split_ifs with ho
    · rw [ho, hf]
    · exact h.records other ho
  · dsimp only
    cases hj : s.pendingModuleEvents.find? moduleName with
    | none =>
      rw [find?_erase]
      split_ifs with ho
      · rw [ho, hj]
      · exact h.journals other ho
    | some _ =>
      have hname := (find?_eq_some.1 hj).2
      rw [find?_insert, hname]
      split_ifs with ho
      · rw [ho, hj]
      · exact h.journals other ho

/-- The body of a transition: what comes between the two sweeps. -/
def transitionBody (clock : WallClock ext) (operationId : Text)
    (change : RuntimeOperationTransition) (state : RegistryState ext)
    (record : RuntimeOperationRecord ext) :
    Mutation (RegistryState ext) TransitionDisposition :=
  Mutation.onError (do
      let disposition ← onRecords (applyRuntimeOperationTransition clock operationId change)
      (replayedModule record change).forM (replayPendingModuleEvents clock · operationId)
      pure disposition)
    (fun failed =>
      match replayedModule record change with
      | none => failed
      | some moduleName =>
        { failed with
          records := failed.records.insert record
          pendingModuleEvents :=
            match state.pendingModuleEvents.find? moduleName with
            | some journal => failed.pendingModuleEvents.insert journal
            | none => failed.pendingModuleEvents.erase moduleName })

theorem onRecords_of_ok {α : Type} {m : Mutation (Records ext) α} {a : α}
    (h : m s.records = .ok a records) : onRecords m s = .ok a { s with records } := by
  simp [onRecords, Mutation.zoom, h]

theorem onRecords_of_error {α : Type} {m : Mutation (Records ext) α} {e : String}
    (h : m s.records = .error e records) :
    onRecords m s = .error e { s with records } := by
  simp [onRecords, Mutation.zoom, h]

/-- **The body of a transition** changes the record of its operation and replays the events that
were deferred for it, or leaves everything as it was. -/
theorem transitionBody_cases (clock : WallClock ext) (change : RuntimeOperationTransition)
    (hf : s.records.find? op = some r)
    (hfits : ∀ moduleName, (empty moduleName).Fits (s.pendingModuleEvents.eventsOf moduleName)) :
    (∃ disposition r₁ middle, TransitionApplies clock s.records op change r r₁ disposition ∧
        Replays clock op { s with records := s.records.insert r₁ }
          (replayedModule r change) middle ∧
        transitionBody clock op change s r s = .ok disposition middle) ∨
      ∃ e failed, transitionBody clock op change s r s = .error e failed ∧
        SameContent s failed := by
  unfold transitionBody
  rcases applyRuntimeOperationTransition_result clock change hf with
    ⟨disposition, r₁, hap, ha⟩ | ⟨e, ha⟩
  · have hid := hap.changed.operationId.trans (find?_eq_some.1 hf).2
    have hfind₁ : (s.records.insert r₁).find? op = some r₁ :=
      find?_insert_changed hf hap.changed
    cases hmod : replayedModule r change with
    | none =>
      refine .inl ⟨disposition, r₁, _, hap, .nothing, Mutation.onError_of_ok ?_⟩
      rw [bind_of_ok (onRecords_of_ok ha)]
      rfl
    | some moduleName =>
      rcases @replayPendingModuleEvents_cases _ clock moduleName
        { s with records := s.records.insert r₁ } op r₁ hfind₁
        (hfits moduleName) with ⟨fates, r', hr, hok⟩ | ⟨e, failed, herr, hfail⟩
      · refine .inl ⟨disposition, r₁, _, hap, .journal hfind₁ hr, Mutation.onError_of_ok ?_⟩
        rw [bind_of_ok (onRecords_of_ok ha)]
        exact bind_of_ok hok
      · refine .inr ⟨e, _, Mutation.onError_of_error ?_,
          ((ReplayFailed.insertRecord s hid).trans hfail).restored hf⟩
        rw [bind_of_ok (onRecords_of_ok ha)]
        exact bind_of_error herr
  · refine .inr ⟨e, _, Mutation.onError_of_error (bind_of_error (onRecords_of_error ha)), ?_⟩
    cases replayedModule r change with
    | none => exact .refl s
    | some moduleName => exact (ReplayFailed.refl moduleName op s).restored hf

end Calls

section Deferral

open Mutation List

variable {ext : OperationExternals} {clock : WallClock ext} {s : RegistryState ext}
  {event : ModuleEventEnvelope} {r : RuntimeOperationRecord ext}

/-! ### Evidence -/

/-- What is recorded of a module event in the history of an operation. -/
structure ModuleEvidence where
  phase : EventPhase
  message : String
  event : ModuleEventEnvelope

/-- A module event that is evicted from its journal. -/
def overflowEvidence (event : ModuleEventEnvelope) : ModuleEvidence :=
  ⟨.moduleEventJournalOverflow,
    "oldest deferred module event evicted before correlation registration", event⟩

/-- A module event that is deferred. -/
def deferredEvidence (event : ModuleEventEnvelope) : ModuleEvidence :=
  ⟨.moduleEventDeferred, "module event arrived before dispatch correlation registration", event⟩

/-- **Record evidence in the history of an operation**, one event after the other. -/
def pushEvidence (clock : WallClock ext) (record : RuntimeOperationRecord ext)
    (evidence : List ModuleEvidence) : Except String (RuntimeOperationRecord ext) :=
  evidence.foldlM
    (fun record evidence => pushEvent clock record evidence.phase evidence.message none
      (some (evidence.event.result ext)) evidence.event.error)
    record

variable {r' : RuntimeOperationRecord ext} {evidence evidence' : Text → List ModuleEvidence}
  {records records' : Records ext} {evicted : List PendingModuleEvent}

theorem pushEvidence_append_eq_ok {evidence evidence' : List ModuleEvidence}
    {middle : RuntimeOperationRecord ext}
    (h : pushEvidence clock r evidence = .ok middle)
    (h' : pushEvidence clock middle evidence' = .ok r') :
    pushEvidence clock r (evidence ++ evidence') = .ok r' := by
  unfold pushEvidence
  rw [foldlM_append]
  exact bind_eq_ok.2 ⟨middle, h, h'⟩

theorem pushEvidence_essence {evidence : List ModuleEvidence}
    (h : pushEvidence clock r evidence = .ok r') : r'.essence = r.essence :=
  foldlM_induction (P := fun current => current.essence = r.essence) h rfl
    fun _ _ _ _ hcur hpush => (pushEvent_essence hpush).trans hcur

/-- The records after evidence has been added: each has the evidence that is for its operation. -/
def Evidenced (clock : WallClock ext) (evidence : Text → List ModuleEvidence)
    (before after : Records ext) : Prop :=
  ∀ operationId, (before.find? operationId = none ∧ after.find? operationId = none) ∨
    ∃ record record', before.find? operationId = some record ∧
      after.find? operationId = some record' ∧
      pushEvidence clock record (evidence operationId) = .ok record'

theorem Evidenced.refl (clock : WallClock ext) (records : Records ext) :
    Evidenced clock (fun _ => []) records records := by
  intro op
  cases hf : records.find? op with
  | none => exact .inl ⟨rfl, rfl⟩
  | some r => exact .inr ⟨r, r, rfl, rfl, rfl⟩

theorem Evidenced.trans {a b c : Records ext}
    (h : Evidenced clock evidence a b) (h' : Evidenced clock evidence' b c) :
    Evidenced clock (fun op => evidence op ++ evidence' op) a c := by
  intro op
  rcases h op with ⟨ha, hb⟩ | ⟨r, _, ha, hb, hpush⟩
  · rcases h' op with ⟨-, hc⟩ | ⟨other, -, ho, -⟩
    · exact .inl ⟨ha, hc⟩
    · rw [hb] at ho
      cases ho
  · rcases h' op with ⟨hn, -⟩ | ⟨_, r', ho, hc, hpush'⟩
    · rw [hb] at hn
      cases hn
    · rw [hb] at ho
      cases ho
      exact .inr ⟨r, r', ha, hc, pushEvidence_append_eq_ok hpush hpush'⟩

theorem Evidenced.congr {before after : Records ext} (h : Evidenced clock evidence before after)
    (heq : ∀ op, evidence' op = evidence op) :
    Evidenced clock evidence' before after := by
  rwa [show evidence' = evidence from funext heq]

/-- The evidence of a module event that is added to the operations of a list. -/
theorem pushModuleEvent_evidenced {phase : EventPhase} {msg : String} {missing : Option String}
    {operationIds : List Text}
    (h : pushModuleEvent clock phase msg missing event records operationIds = .ok records') :
    Evidenced clock (fun op =>
      List.replicate (operationIds.count op) ⟨phase, msg, event⟩) records records' := by
  induction operationIds generalizing records with
  | nil =>
    obtain rfl := pure_eq_ok.1 h
    exact .refl clock records
  | cons first _ ih =>
    unfold pushModuleEvent at h
    rw [foldlM_cons] at h
    obtain ⟨middle, hstep, hrest⟩ := bind_eq_ok.1 h
    have hfirst : Evidenced clock (fun op =>
        if op = first then [⟨phase, msg, event⟩] else []) records middle := by
      intro op
      split at hstep
      · next hn =>
        cases hstep
        cases hf : records.find? op with
        | none => exact .inl ⟨rfl, rfl⟩
        | some r =>
          refine .inr ⟨r, r, rfl, rfl, ?_⟩
          dsimp only
          rw [if_neg]
          · rfl
          · rintro rfl
            rw [hf] at hn
            cases hn
      · cases hstep
      · next _ r hr =>
        simp only [bind_eq_ok, pure_eq_ok] at hstep
        obtain ⟨r', hpush, rfl⟩ := hstep
        have hid : r'.operation.operationId = first :=
          (congrArg (·.operation.operationId) (pushEvent_essence hpush)).trans
            (Table.find?_eq_some.1 hr).2
        by_cases hs : op = first
        · refine .inr ⟨r, r', hs ▸ hr, ?_, ?_⟩
          · rw [Table.find?_insert, if_pos (hs.trans hid.symm)]
          · dsimp only
            rw [if_pos hs]
            exact bind_eq_ok.2 ⟨r', hpush, rfl⟩
        · have ho : (records.insert r').find? op = records.find? op := by
            rw [Table.find?_insert, if_neg (hid ▸ hs)]
          dsimp only
          rw [ho, if_neg hs]
          cases hf : records.find? op with
          | none => exact .inl ⟨rfl, rfl⟩
          | some other => exact .inr ⟨other, other, rfl, rfl, rfl⟩
    refine (hfirst.trans (ih hrest)).congr fun op => ?_
    rw [count_cons]
    by_cases hs : op = first
    · subst hs
      simp [replicate_succ]
    · simp [hs, Ne.symm hs]

/-! ### Making room -/

/-- What makes room: the oldest events are evicted, none if there is room, and there is room
then. -/
theorem makeRoom_eq_ok {bytes retainedBytes retainedBytes' : ℕ}
    {events kept : List PendingModuleEvent}
    (h : makeRoom bytes events retainedBytes = .ok (kept, retainedBytes', evicted))
    (hw : retainedBytes = (events.map (·.eventBytes)).sum) :
    events = evicted ++ kept ∧ retainedBytes' = (kept.map (·.eventBytes)).sum ∧
      kept.length < maxPendingModuleEvents ∧ retainedBytes' + bytes ≤ maxPendingModuleEventBytes ∧
      (events.length < maxPendingModuleEvents → retainedBytes + bytes ≤ maxPendingModuleEventBytes →
        evicted = []) := by
  induction events generalizing retainedBytes evicted with rw [makeRoom] at h
  | nil =>
    split_ifs at h with hbytes
    cases h
    exact ⟨rfl, hw, by decide, hbytes, fun _ _ => rfl⟩
  | cons pending events ih =>
    split_ifs at h with hfits hu
    · cases h
      exact ⟨rfl, hw, hfits.1, hfits.2, fun _ _ => rfl⟩
    · simp only [bind_eq_ok, pure_eq_ok] at h
      obtain ⟨⟨_, _, _⟩, hrest, heq⟩ := h
      cases heq
      have hleft : retainedBytes - pending.eventBytes = (events.map (·.eventBytes)).sum := by
        rw [hw, map_cons, sum_cons, Nat.add_sub_cancel_left]
      obtain ⟨rfl, hw', hcnt, hbytes, -⟩ := ih hrest hleft
      exact ⟨rfl, hw', hcnt, hbytes, fun hlen hroom => absurd ⟨hlen, hroom⟩ hfits⟩

theorem pushBack_eq_ok {journal journal' : PendingModuleEventJournal}
    {pending : PendingModuleEvent} (h : journal.pushBack pending = .ok journal') :
    journal' =
      { journal with
        events := journal.events ++ [pending]
        retainedBytes := journal.retainedBytes + pending.eventBytes } := by
  simp only [pushBack, bind_eq_ok, pure_eq_ok] at h
  obtain ⟨-, -, -, -, rfl⟩ := h
  rfl

/-- A journal in order is that of its events. -/
theorem JournalsSound.getD (h : JournalsSound s) (moduleName : Text) :
    (s.pendingModuleEvents.find? moduleName).getD (empty moduleName) =
      (empty moduleName).append (s.pendingModuleEvents.eventsOf moduleName) := by
  unfold Journals.eventsOf
  cases hf : s.pendingModuleEvents.find? moduleName with
  | none => rfl
  | some journal =>
    obtain ⟨hm, rfl⟩ := Table.find?_eq_some.1 hf
    refine PendingModuleEventJournal.mk.injEq .. ▸ ⟨rfl, rfl, ?_⟩
    exact (h journal hm).weighed.trans (Nat.zero_add _).symm

/-! ### Deferring -/

/-- What is recorded on an operation when events are evicted and one is deferred. -/
def deferralEvidence (evicted : List PendingModuleEvent) (event : ModuleEventEnvelope)
    (candidates : List Text) (operationId : Text) : List ModuleEvidence :=
  evicted.flatMap (fun pending =>
    List.replicate (pending.candidateOperationIds.count operationId)
      (overflowEvidence pending.event)) ++
    List.replicate (candidates.count operationId) (deferredEvidence event)

/-- **What deferring a module event does to the registry.** -/
structure Defers (clock : WallClock ext) (event : ModuleEventEnvelope) (candidates : List Text)
    (evicted : List PendingModuleEvent) (before after : RegistryState ext) : Prop where
  events : ∃ kept eventBytes, event.retainedSerializedBytes ext = .ok eventBytes ∧
    before.pendingModuleEvents.eventsOf event.moduleName = evicted ++ kept ∧
    kept.length < maxPendingModuleEvents ∧
    (kept.map (·.eventBytes)).sum + eventBytes ≤ maxPendingModuleEventBytes ∧
    after.pendingModuleEvents = before.pendingModuleEvents.replace event.moduleName
      (kept ++ [⟨event, candidates, eventBytes⟩])
  /-- Nothing is evicted if there is room. -/
  spared : ∀ eventBytes, event.retainedSerializedBytes ext = .ok eventBytes →
    (before.pendingModuleEvents.eventsOf event.moduleName).length < maxPendingModuleEvents →
    ((before.pendingModuleEvents.eventsOf event.moduleName).map (·.eventBytes)).sum + eventBytes ≤
      maxPendingModuleEventBytes → evicted = []
  records : Evidenced clock (deferralEvidence evicted event candidates) before.records after.records

theorem overflow_evidenced (h : evicted.foldlM
      (fun records evicted => pushModuleEvent clock .moduleEventJournalOverflow
        "oldest deferred module event evicted before correlation registration" none evicted.event
        records evicted.candidateOperationIds) records = .ok records') :
    Evidenced clock (fun op => evicted.flatMap fun pending =>
      List.replicate (pending.candidateOperationIds.count op)
        (overflowEvidence pending.event)) records records' := by
  induction evicted generalizing records with
  | nil =>
    obtain rfl := pure_eq_ok.1 h
    exact .refl clock records
  | cons _ _ ih =>
    obtain ⟨_, hstep, hrest⟩ := bind_eq_ok.1 h
    exact ((pushModuleEvent_evidenced hstep).trans (ih hrest)).congr fun _ => flatMap_cons

theorem deferModuleEvent_defers {candidates : List Text} {s' : RegistryState ext}
    (h : JournalsSound s) (hok : deferModuleEvent clock event candidates s = .ok s') :
    ∃ evicted, Defers clock event candidates evicted s s' := by
  simp only [deferModuleEvent, bind_eq_ok, pure_eq_ok, h.getD] at hok
  obtain ⟨eventBytes, hbytes, _, -, ⟨kept, _, evicted⟩, hroom, _, -, _,
    ho, deferred, hdef, journal, hpush, rfl⟩ := hok
  obtain ⟨hsplit, rfl, hcnt, hfits, hs⟩ := makeRoom_eq_ok hroom (Nat.zero_add _)
  refine ⟨evicted, ⟨kept, eventBytes, hbytes, hsplit, hcnt, hfits, ?_⟩, fun _ hok hlen hsum => ?_,
    (overflow_evidenced ho).trans (pushModuleEvent_evidenced hdef)⟩
  · obtain rfl := pushBack_eq_ok hpush
    unfold Journals.replace
    rw [if_neg (by simp)]
    refine congrArg (Table.insert s.pendingModuleEvents) ?_
    refine PendingModuleEventJournal.mk.injEq .. ▸ ⟨rfl, rfl, ?_⟩
    simp [PendingModuleEventJournal.empty]
  · cases hbytes.symm.trans hok
    exact hs hlen ((Nat.add_right_cancel_iff.2 (Nat.zero_add _)).trans_le hsum)

/-! ### Applying a module event -/

/-- What is not claimed has changed nothing. -/
theorem IngressApplies.records_eq {ingress : ModuleEventIngressResult}
    (h : IngressApplies clock event records ingress records')
    (hu : ingress = .unknown ∨ ∃ operationIds, ingress = .uncorrelated operationIds) :
    records' = records := by
  cases h with
  | unclaimed => rfl
  | ambiguous => rfl
  | stale | applied => rcases hu with hfalse | ⟨_, hfalse⟩ <;> cases hfalse

/-- **What becomes of a module event that has been looked at**: it is deferred if no operation waits
for it and one may yet. -/
inductive Disposes (clock : WallClock ext) (event : ModuleEventEnvelope)
    (before : RegistryState ext) (ingress : ModuleEventIngressResult) :
    ModuleEventIngressResult → RegistryState ext → Prop
  | settled (hclaimed :
      (ingress = .unknown ∨ ∃ operationIds, ingress = .uncorrelated operationIds) →
      pendingModuleEventCandidates before.records event.moduleName = []) :
      Disposes clock event before ingress ingress before
  | deferred {evicted : List PendingModuleEvent} {after : RegistryState ext}
      (hunclaimed : ingress = .unknown ∨ ∃ operationIds, ingress = .uncorrelated operationIds)
      (hcandidates : pendingModuleEventCandidates before.records event.moduleName ≠ [])
      (hdefers : Defers clock event (pendingModuleEventCandidates before.records event.moduleName)
        evicted before after)
      (hok : deferModuleEvent clock event
        (pendingModuleEventCandidates before.records event.moduleName) before = .ok after) :
      Disposes clock event before ingress
        (.deferred (pendingModuleEventCandidates before.records event.moduleName)) after

theorem deferUnclaimed_result (clock : WallClock ext) (event : ModuleEventEnvelope)
    (ingress : ModuleEventIngressResult) (h : JournalsSound s) :
    (∃ result after, Disposes clock event s ingress result after ∧
        deferUnclaimed clock event ingress s = .ok result after) ∨
      ((ingress = .unknown ∨ ∃ operationIds, ingress = .uncorrelated operationIds) ∧
        ∃ e, deferUnclaimed clock event ingress s = .error e s) := by
  have hu (hu : ingress = .unknown ∨ ∃ operationIds, ingress = .uncorrelated operationIds)
      (heq : deferUnclaimed clock event ingress s =
        if pendingModuleEventCandidates s.records event.moduleName = [] then .ok ingress s
        else (do
          Mutation.attempt (deferModuleEvent clock event
            (pendingModuleEventCandidates s.records event.moduleName))
          pure (.deferred (pendingModuleEventCandidates s.records event.moduleName)) :
            Mutation (RegistryState ext) ModuleEventIngressResult) s) :
      (∃ result after, Disposes clock event s ingress result after ∧
        deferUnclaimed clock event ingress s = .ok result after) ∨
      ((ingress = .unknown ∨ ∃ operationIds, ingress = .uncorrelated operationIds) ∧
        ∃ e, deferUnclaimed clock event ingress s = .error e s) := by
    rw [heq]
    split_ifs with hc
    · exact .inl ⟨_, _, .settled fun _ => hc, rfl⟩
    · cases hdefer : deferModuleEvent clock event
        (pendingModuleEventCandidates s.records event.moduleName) s with
      | ok after =>
        obtain ⟨_, hdef⟩ := deferModuleEvent_defers h hdefer
        exact .inl ⟨_, after, .deferred hu hc hdef hdefer,
          bind_of_ok (attempt_eq_ok (u := ()).2 hdefer)⟩
      | error e =>
        refine .inr ⟨hu, e, bind_of_error ?_⟩
        simp [Mutation.attempt, hdefer]
  have hget : deferUnclaimed clock event ingress s = _ :=
    bind_of_ok (get_eq_ok.2 ⟨rfl, rfl⟩)
  cases ingress with
  | unknown =>
    refine hu (.inl rfl) (hget.trans ?_)
    split_ifs <;> rfl
  | uncorrelated =>
    refine hu (.inr ⟨_, rfl⟩) (hget.trans ?_)
    dsimp only
    split_ifs <;> rfl
  | _ => exact .inl ⟨_, _, .settled (by simp), rfl⟩

end Deferral

end LogosInspector.Operations
