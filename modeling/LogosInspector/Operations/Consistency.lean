import LogosInspector.Operations.Calls

/-!
# The journals of a registry are in order

An event is deferred for operations that have been sent to its module and have not been resolved.
These *await* the module: they are retained, they are not over, and their record says which module
it is. A transition that changes this replays the journal of the module, so that the operation is no
candidate of any event afterwards; removing an operation takes it off all journals; everything else
leaves the operations that await a module as they are. So in every state of a registry all
candidates of all deferred events await the module of the journal (`run_registrySound`).
-/

namespace LogosInspector.Operations

open Mutation List Table
open RegistryState (initial)

open PendingModuleEventJournal

section Consistency

variable {ext : OperationExternals} {clock : WallClock ext} {s : RegistryState ext}
  {op moduleName : Text} {change : RuntimeOperationTransition}
  {r r₁ : RuntimeOperationRecord ext}

/-! ### Transitions that leave an operation where it is -/

variable {disposition : TransitionDisposition}

/-- A change of a record that leaves it with the module that it awaits. -/
def KeepsAwaiting (record record₁ : RuntimeOperationRecord ext) : Prop :=
  record.operation.status.isTerminal = false → record.pendingModuleName ≠ none →
    record₁.operation.status.isTerminal = false ∧
      record₁.pendingModuleName = record.pendingModuleName

theorem KeepsAwaiting.of_over (h : r.operation.status.isTerminal = true) :
    KeepsAwaiting r r₁ := fun hrun => by simp [h] at hrun

instance : IsTrans (RuntimeOperationRecord ext) KeepsAwaiting where
  trans _ _ _ h h' hrunning hpending := by
    obtain ⟨hrunning', hsame⟩ := h hrunning hpending
    obtain ⟨hrunning'', hsame'⟩ := h' hrunning' (hsame ▸ hpending)
    exact ⟨hrunning'', hsame'.trans hsame⟩

theorem keptByReports_keepsAwaiting : KeptByReports clock (@KeepsAwaiting ext) where
  push hrun _ h _ _ :=
    ⟨pushEvent_running h hrun, congrArg (·.pendingModuleName) (pushEvent_essence h)⟩
  report status _ _ _ hrun hs _ _ := by
    rcases hs with rfl | rfl
    · exact ⟨hrun, rfl⟩
    · exact ⟨rfl, rfl⟩

variable {records : Records ext} {before after middle : RegistryState ext} {readings : Readings ext}
  {e : String}

/-- An operation that awaits a module awaits it after a transition that does not settle it. -/
theorem TransitionApplies.awaits (h : TransitionApplies clock records op change r r₁ disposition)
    (hset : transitionSettlesPendingModule change = false) : KeepsAwaiting r r₁ := by
  cases h with
  | stale hover => exact .of_over hover
  | rejected _ hprob =>
    -- only what is resolved can be turned down
    unfold acceptanceProblem at hprob
    split at hprob
    · cases hset
    · cases hprob
  | applied hrun _ happly =>
    exact keptByReports_keepsAwaiting.of_applyTransition hrun (fun _ _ _ _ _ => ⟨rfl, rfl⟩)
      hset happly

/-! ### Changing one record -/

theorem RegistryState.Awaits.insertRecord (h : s.Awaits moduleName op) (hm : r ∈ s.records)
    (hid : r₁.operation.operationId = r.operation.operationId)
    (hkeep : KeepsAwaiting r r₁) :
    RegistryState.Awaits { s with records := s.records.insert r₁ } moduleName op := by
  obtain ⟨awaiting, ha, hawaitingId, hrun, hp⟩ := h
  by_cases hs : awaiting = r
  · subst hs
    obtain ⟨hrunning₁, hpen₁⟩ := hkeep hrun (by simp [hp])
    exact ⟨r₁, mem_insert_self _ _, hid.trans hawaitingId, hrunning₁, hpen₁.trans hp⟩
  · refine ⟨awaiting, mem_insert.2 (.inr ⟨ha, fun hkey => hs ?_⟩), hawaitingId, hrun, hp⟩
    exact eq_of_key_eq ha hm (hkey.trans hid)

theorem JournalsSound.insertRecord (h : JournalsSound s) (hm : r ∈ s.records)
    (hid : r₁.operation.operationId = r.operation.operationId)
    (hkeep : KeepsAwaiting r r₁) :
    JournalsSound { s with records := s.records.insert r₁ } :=
  fun journal hj => (h journal hj).mono fun _ hawait =>
    hawait.insertRecord hm hid hkeep

theorem JournalsSound.track (h : JournalsSound s) (op : Text) (terminalAt terminalExpiresAt : ℕ) :
    JournalsSound (trackNewlyTerminalRecord op terminalAt terminalExpiresAt s) := by
  unfold trackNewlyTerminalRecord
  split
  · exact h
  · next r hf =>
    split_ifs with hcases
    · exact h
    · simp only [not_or, Bool.not_eq_false] at hcases
      have hi : JournalsSound { s with
          records := s.records.insert (r.tracked terminalAt terminalExpiresAt) } :=
        h.insertRecord (find?_eq_some.1 hf).1 rfl (.of_over hcases.1)
      exact hi.swept (.of_eq rfl rfl)

/-! ### Replaying a journal -/

/-- What stays in a journal takes no more room than it had. -/
theorem survivors_bytes_sublist (events : List PendingModuleEvent) (fates : List EventFate) :
    List.Sublist ((survivors events fates).map (·.eventBytes)) (events.map (·.eventBytes)) := by
  induction events generalizing fates with
  | nil => exact List.Sublist.refl _
  | cons _ _ ih =>
    cases fates with
    | nil => exact nil_sublist _
    | cons fate fates =>
      rw [survivors_cons, map_append, map_cons]
      cases fate with
      | stays => exact (ih fates).cons_cons _
      | applied | forsaken | overflowed => exact (ih fates).cons _

variable {events : List PendingModuleEvent}

/-- **What a replay leaves in a journal**: events that the operation is no candidate of, each for
candidates that it had. -/
theorem mem_survivors {fates : List EventFate} {r' : RuntimeOperationRecord ext}
    {pending' : PendingModuleEvent}
    (h : replayFates clock op events r = .ok fates r')
    (hm : pending' ∈ survivors events fates) :
    ∃ pending ∈ events, pending'.event = pending.event ∧ (∀ cand ∈ pending'.candidateOperationIds,
        cand ∈ pending.candidateOperationIds ∧ cand ≠ op) ∧
      (pending.candidateOperationIds ≠ [] → pending'.candidateOperationIds ≠ []) := by
  induction events generalizing r fates with
  | nil => cases hm
  | cons pending _ ih =>
    simp only [replayFates, bind_ok_iff, pure_ok_iff] at h
    obtain ⟨_, _, hfate, _, _, hfates, rfl, rfl⟩ := h
    rw [survivors_cons] at hm
    rcases mem_append.1 hm with hm | hm
    · refine ⟨pending, mem_cons_self, ?_⟩
      rcases replayFate_eq_ok hfate with ⟨hcand, rfl, -⟩ | ⟨applied, -, -, rfl⟩
      · obtain rfl := mem_singleton.1 hm
        exact ⟨rfl, fun cand hm => ⟨hm, fun heq => hcand (heq ▸ hm)⟩, id⟩
      · cases applied with
        | true => cases hm
        | false =>
          rw [if_neg Bool.false_ne_true] at hm
          unfold PendingModuleEvent.struck at hm
          split_ifs at hm with hn
          · cases hm
          · obtain rfl := mem_singleton.1 hm
            exact ⟨rfl, fun _ hm => by simpa using List.mem_filter.1 hm, fun _ => hn⟩
    · obtain ⟨other, ho, hrest⟩ := ih hfates hm
      exact ⟨other, mem_cons_of_mem _ ho, hrest⟩

theorem Journals.mem_replace {journals : Journals} {journal : PendingModuleEventJournal} :
    journal ∈ journals.replace moduleName events ↔
      (events ≠ [] ∧ journal = (empty moduleName).append events) ∨
        (journal ∈ journals ∧ journal.moduleName ≠ moduleName) := by
  unfold Journals.replace
  split_ifs with hnil
  · simp [hnil]
  · rw [mem_insert]
    simp only [hnil, ne_eq, not_false_eq_true, true_and]
    rfl

/-- The events of a module, as far as they are in order, come from its journal. -/
theorem JournalsSound.journal_of_mem (h : JournalsSound s) {pending : PendingModuleEvent}
    (hm : pending ∈ s.pendingModuleEvents.eventsOf moduleName) :
    pending.candidateOperationIds ≠ [] ∧
      ∀ cand ∈ pending.candidateOperationIds, s.Awaits moduleName cand := by
  unfold Journals.eventsOf at hm
  cases hf : s.pendingModuleEvents.find? moduleName with
  | none => simp [hf] at hm
  | some journal =>
    rw [hf] at hm
    obtain ⟨hj, rfl⟩ := find?_eq_some.1 hf
    exact ⟨(h journal hj).wanted pending hm, (h journal hj).candidates pending hm⟩

/-- Journals that are in order but for one, which has other events. -/
theorem JournalsSound.replace (h : JournalsSound before)
    (hj : after.pendingModuleEvents = before.pendingModuleEvents.replace moduleName events)
    (hcnt : events.length ≤ maxPendingModuleEvents)
    (hbytes : (events.map (·.eventBytes)).sum ≤ maxPendingModuleEventBytes)
    (hevs : ∀ pending ∈ events, pending.candidateOperationIds ≠ [] ∧
      ∀ cand ∈ pending.candidateOperationIds, after.Awaits moduleName cand)
    (ho : ∀ other, other ≠ moduleName → ∀ cand, before.Awaits other cand →
      after.Awaits other cand) : JournalsSound after := by
  intro journal hm
  rw [hj] at hm
  rcases Journals.mem_replace.1 hm with ⟨hne, rfl⟩ | ⟨hm, hname⟩
  · refine ⟨?_, hcnt, ?_, hne, fun pending hp => (hevs pending hp).1,
      fun pending hp => (hevs pending hp).2⟩
    · simp [Weighed, append, PendingModuleEventJournal.empty]
    · simpa [append, PendingModuleEventJournal.empty] using hbytes
  · exact (h journal hm).mono (ho _ hname)

/-- **After a transition the journals are in order.** -/
theorem JournalsSound.transitioned (h : JournalsSound s) (hf : s.records.find? op = some r)
    (hap : TransitionApplies clock s.records op change r r₁ disposition)
    (hreplays : Replays clock op { s with records := s.records.insert r₁ }
      (replayedModule r change) middle) : JournalsSound middle := by
  obtain ⟨hm, hid⟩ := find?_eq_some.1 hf
  have hid₁ := hap.changed.operationId
  cases hmod : replayedModule r change with rw [hmod] at hreplays
  | none =>
    cases hreplays
    refine h.insertRecord hm hid₁ fun hrun hp => ?_
    refine hap.awaits ?_ hrun hp
    -- otherwise the journal of its module would be replayed
    by_contra hset
    rw [Bool.not_eq_false] at hset
    unfold replayedModule at hmod
    rw [if_pos ⟨hrun, hset⟩] at hmod
    exact hp hmod
  | some moduleName =>
    have hp : r.pendingModuleName = some moduleName := by
      unfold replayedModule at hmod
      split_ifs at hmod
      exact hmod
    cases hreplays with
    | journal hfind₁ hr =>
      next record₁' r' fates =>
      have hs : some record₁' = some r₁ :=
        hfind₁.symm.trans (find?_insert_changed hf hap.changed)
      cases hs
      have hid' : r'.operation.operationId = op :=
        (replayFates_changed hr).operationId.trans (hid₁.trans hid)
      -- the operations that await another module, or are another operation, are as they were
      have hothers : ∀ other cand, s.Awaits other cand → (other ≠ moduleName ∨ cand ≠ op) →
          RegistryState.Awaits { s with
            records := (s.records.insert r₁).insert r'
            pendingModuleEvents := s.pendingModuleEvents.replace moduleName
              (survivors (s.pendingModuleEvents.eventsOf moduleName) fates) } other cand := by
        rintro other cand ⟨awaiting, hawaiting, hawaitingId, hrun, hawait⟩ hne
        have hnot : awaiting.operation.operationId ≠ op := by
          intro hs
          have heq : awaiting = r := eq_of_key_eq hawaiting hm (hs.trans hid.symm)
          rw [heq, hp] at hawait
          cases hawait
          rcases hne with hne | hne
          · exact hne rfl
          · exact hne (hawaitingId.symm.trans hs)
        refine ⟨awaiting, ?_, hawaitingId, hrun, hawait⟩
        refine mem_insert.2 (.inr ⟨mem_insert.2 (.inr ⟨hawaiting, ?_⟩), ?_⟩)
        · rw [hid₁, hid]
          exact hnot
        · rw [hid']
          exact hnot
      have hfits := h.fits moduleName
      have hsub := survivors_bytes_sublist (s.pendingModuleEvents.eventsOf moduleName) fates
      refine JournalsSound.replace h rfl ?_ ?_ (fun _ hpending' => ?_)
        fun other ho cand hawait => hothers other cand hawait (.inl ho)
      · have hlen := hsub.length_le
        simp only [length_map] at hlen
        exact hlen.trans (by simpa [PendingModuleEventJournal.empty] using hfits.1)
      · exact (hsub.sum_le_sum (by simp)).trans
          (by simpa [PendingModuleEventJournal.empty] using hfits.2)
      · obtain ⟨_, hp, -, hcandidates, hw⟩ := mem_survivors hr hpending'
        obtain ⟨hne, hawait⟩ := h.journal_of_mem hp
        refine ⟨hw hne, fun cand hcand => ?_⟩
        obtain ⟨hcand, hnot⟩ := hcandidates cand hcand
        exact hothers moduleName cand (hawait cand hcand) (.inr hnot)

/-! ### Module events -/

/-- An operation whose record has an event more awaits what it has awaited. -/
theorem Evidenced.awaits {evidence : Text → List ModuleEvidence}
    (h : Evidenced clock evidence before.records after.records)
    (hawait : before.Awaits moduleName op) : after.Awaits moduleName op := by
  obtain ⟨r, hm, hid, hrun, hp⟩ := hawait
  rcases h op with ⟨hn, -⟩ | ⟨other, r', ho, hrec', hpush⟩
  · exact absurd hid (find?_eq_none.1 hn r hm)
  · have hs : some other = some r := ho.symm.trans (find?_eq_some.2 ⟨hm, hid⟩)
    cases hs
    obtain ⟨hmem', hid'⟩ := find?_eq_some.1 hrec'
    have he := pushEvidence_essence hpush
    exact ⟨r', hmem', hid', (congrArg (·.operation.status.isTerminal) he).trans hrun,
      (congrArg (·.pendingModuleName) he).trans hp⟩

theorem awaits_of_mem_candidates (h : op ∈ pendingModuleEventCandidates s.records moduleName) :
    s.Awaits moduleName op := by
  obtain ⟨r, hm, rfl⟩ := mem_map.1 h
  obtain ⟨hm, hawait⟩ := List.mem_filter.1 hm
  simp only [Bool.and_eq_true, Bool.not_eq_true', decide_eq_true_eq] at hawait
  exact ⟨r, hm, rfl, hawait.1, hawait.2⟩

variable {event : ModuleEventEnvelope}

/-- **After an event is deferred the journals are in order.** -/
theorem JournalsSound.deferred {evicted : List PendingModuleEvent} (h : JournalsSound s)
    (hcandidates : pendingModuleEventCandidates s.records event.moduleName ≠ [])
    (hdef : Defers clock event (pendingModuleEventCandidates s.records event.moduleName)
      evicted s after) : JournalsSound after := by
  obtain ⟨_, _, -, hsplit, hcnt, hbytes, hj⟩ := hdef.events
  refine h.replace hj ?_ ?_ (fun pending hp => ?_) fun _ _ _ hawait => hdef.records.awaits hawait
  · rw [length_append]
    exact hcnt
  · simpa using hbytes
  · rcases mem_append.1 hp with hkept | hnew
    · have hm : pending ∈ s.pendingModuleEvents.eventsOf event.moduleName := by
        rw [hsplit]
        exact mem_append_right _ hkept
      obtain ⟨hw, hawait⟩ := h.journal_of_mem hm
      exact ⟨hw, fun cand hcand =>
        hdef.records.awaits (hawait cand hcand)⟩
    · obtain rfl := mem_singleton.1 hnew
      exact ⟨hcandidates, fun _ hcand =>
        hdef.records.awaits (awaits_of_mem_candidates hcand)⟩

/-- An operation that has not been accepted takes no events. -/
theorem not_correlatesEvent (h : r.operation.terminalEvent = none) :
    correlatesEvent event r.operation = false := by
  simp [correlatesEvent, h]

section

variable (h : JournalsSound s)

include h

/-- **After a module event is applied the journals are in order.** An operation that a module event
is applied to has been accepted, and awaits nothing. -/
theorem JournalsSound.ingress {ingress : ModuleEventIngressResult} (hsound : ∀ r ∈ s.records,
    Sound r)
    (hap : IngressApplies clock event s.records ingress records) :
    JournalsSound { s with records } := by
  cases hap with
  | unclaimed => exact h
  | ambiguous => exact h
  | stale hone hover hpush =>
    have he := pushEvent_essence hpush
    exact h.insertRecord (mem_of_correlatedRecords hone).1
      (congrArg (·.operation.operationId) he) (.of_over hover)
  | @applied r r₁ hone hrun happly =>
    obtain ⟨hm, hc⟩ := mem_of_correlatedRecords hone
    have hch : Changed (fun _ => False) r r₁ :=
      applyCorrelatedModuleEvent_changed hrun happly
    refine h.insertRecord hm hch.operationId fun _ hp => ?_
    rw [not_correlatesEvent ((hsound r hm).unaccepted hp)] at hc
    cases hc

/-! ### Inserting and removing -/

theorem JournalsSound.inserted (hnew : s.records.contains r.operation.operationId = false) :
    JournalsSound { s with records := s.records.insert r } := by
  refine fun journal hj => (h journal hj).mono ?_
  rintro _ ⟨awaiting, ha, hid, hrest⟩
  refine ⟨awaiting, mem_insert.2 (.inr ⟨ha, fun hs => ?_⟩), hid, hrest⟩
  rw [contains_iff.2 ⟨awaiting, ha, hs⟩] at hnew
  cases hnew

/-- **What removing a record comes to.** It does not fail. -/
theorem removeRecord_result (op : Text) :
    ∃ removed, removeRecord op s = .ok () removed ∧ removed.records = s.records.erase op ∧
      removeOperationFromPendingModuleEvents s.pendingModuleEvents op =
        .ok removed.pendingModuleEvents :=
  ⟨_, bind_ok_iff.2 ⟨_, _, get_eq_ok.2 ⟨rfl, rfl⟩, bind_ok_iff.2
    ⟨_, _, ofExcept_eq_ok.2 ⟨removeOperationFromPendingModuleEvents_ok h op, rfl⟩,
      set_eq_ok.2 rfl⟩⟩, rfl, removeOperationFromPendingModuleEvents_ok h op⟩

/-- **After an operation is removed the journals are in order.** -/
theorem JournalsSound.removed {s' : RegistryState ext} {u : Unit}
    (hok : removeRecord op s = .ok u s') : JournalsSound s' := by
  simp only [removeRecord, bind_ok_iff, get_eq_ok, ofExcept_eq_ok, set_eq_ok] at hok
  obtain ⟨_, _, ⟨rfl, rfl⟩, _, _, ⟨hjournals, rfl⟩, rfl⟩ := hok
  rw [removeOperationFromPendingModuleEvents_ok h op] at hjournals
  obtain rfl := Except.ok.inj hjournals
  intro _ hm
  obtain ⟨hm, ho⟩ := Table.mem_filter.1 hm
  obtain ⟨journal, hj, rfl⟩ := mem_modifyAll.1 hm
  have hsound := h journal hj
  have hlimit := hsound.bytes
  rw [hsound.weighed] at hlimit
  refine ⟨rfl, ?_, (withoutOperation_bytes_le journal op).trans hlimit,
    by simpa using ho, fun pending hp => ?_, fun _ hp => ?_⟩
  · exact (length_filter_le _ _).trans (by simpa using hsound.count)
  · simpa using (List.mem_filter.1 hp).2
  · obtain ⟨original, horiginal, rfl⟩ := mem_map.1 (List.mem_filter.1 hp).1
    intro cand hcand
    obtain ⟨hcand, hne⟩ := List.mem_filter.1 hcand
    obtain ⟨awaiting, ha, hid, hrest⟩ :=
      hsound.candidates original horiginal cand hcand
    refine ⟨awaiting, mem_erase.2 ⟨ha, ?_⟩, hid, hrest⟩
    rw [hid]
    simpa using hne

/-! ### Runs -/

/-- **What holds of every registry.** -/
structure RegistrySound (state : RegistryState ext) : Prop where
  journals : JournalsSound state
  records : ∀ record ∈ state.records, Sound record

omit h in
/-- A sweep of a registry. -/
theorem RegistrySound.sweep (h : RegistrySound s) (now monotonicNow : ℕ) :
    ∃ swept, sweepTerminalHistory now monotonicNow s = .ok () swept ∧ Swept s swept ∧
      RegistrySound swept := by
  obtain ⟨swept, hsweep, hsw⟩ := sweep_swept h.journals now monotonicNow
  refine ⟨swept, hsweep, hsw, h.journals.swept hsw, fun r' hm => ?_⟩
  have he : StateEvolves Advances (fun _ => False) s swept :=
    (keeps_sweepTerminalHistory advances_upheld now monotonicNow s).of_ok hsweep
  obtain ⟨r, hr | hfalse, ha⟩ := he r' hm
  · exact ha.sound (h.records r hr)
  · exact hfalse.elim

/-- What a transition does after its body. -/
def transitionEnd (readings : Readings ext) (operationId : Text) (terminalExpiresAt : ℕ)
    (disposition : TransitionDisposition) : Mutation (RegistryState ext) TransitionDisposition := do
  modify (trackNewlyTerminalRecord operationId readings.now terminalExpiresAt)
  sweepTerminalHistory readings.now readings.monotonicNow
  pure disposition

/-- What a transition does at the end does not fail. -/
theorem transitionEnd_ok (readings : Readings ext) (op : Text)
    (terminalExpiresAt : ℕ) (disposition : TransitionDisposition) :
    ∃ final, transitionEnd readings op terminalExpiresAt disposition s = .ok disposition final ∧
      Swept (trackNewlyTerminalRecord op readings.now terminalExpiresAt s) final := by
  obtain ⟨final, hsweep, hsw⟩ := sweep_swept
    (h.track op readings.now terminalExpiresAt) readings.now readings.monotonicNow
  refine ⟨final, ?_, hsw⟩
  exact bind_ok_iff.2 ⟨(), _, modify_eq_ok.2 rfl, bind_ok_iff.2
    ⟨(), final, hsweep, rfl⟩⟩

/-- The registry once the end of an operation has been noted, if there is one. -/
def RegistryState.tracked (state : RegistryState ext) (operationId : Option Text)
    (terminalAt terminalExpiresAt : ℕ) : RegistryState ext :=
  match operationId with
  | none => state
  | some operationId => trackNewlyTerminalRecord operationId terminalAt terminalExpiresAt state

theorem JournalsSound.tracked (op : Option Text) (terminalAt terminalExpiresAt : ℕ) :
    JournalsSound (s.tracked op terminalAt terminalExpiresAt) := by
  unfold RegistryState.tracked
  split
  · exact h
  · exact h.track _ _ _

/-- After an event has been disposed of the journals are in order. -/
theorem JournalsSound.disposed {clock : WallClock ext} {ingress result : ModuleEventIngressResult}
    (hd : Disposes clock event s ingress result middle) :
    JournalsSound middle := by
  cases hd with
  | settled => exact h
  | deferred _ hc hdef => exact h.deferred hc hdef

/-- What a module event does at the end. -/
def ingestEnd (readings : Readings ext) (terminalExpiresAt : ℕ)
    (result : ModuleEventIngressResult) :
    Mutation (RegistryState ext) (ModuleEventIngressResult × Option Text) := do
  result.operationId.forM fun operationId =>
    modify (trackNewlyTerminalRecord operationId readings.now terminalExpiresAt)
  let state ← get
  let settledOperationId := result.operationId.filter fun operationId =>
    (state.records.find? operationId).any (·.operation.status.isTerminal)
  sweepTerminalHistory readings.now readings.monotonicNow
  pure (result, settledOperationId)

theorem ingestEnd_ok (readings : Readings ext) (terminalExpiresAt : ℕ)
    (result : ModuleEventIngressResult) :
    ∃ settled final, ingestEnd readings terminalExpiresAt result s = .ok (result, settled) final ∧
      Swept (s.tracked result.operationId readings.now terminalExpiresAt) final := by
  obtain ⟨final, hsweep, hsw⟩ := sweep_swept
    (h.tracked result.operationId readings.now terminalExpiresAt) readings.now readings.monotonicNow
  have hforM : (result.operationId.forM fun op =>
      (modify (trackNewlyTerminalRecord op readings.now terminalExpiresAt) :
        Mutation (RegistryState ext) Unit)) s =
      .ok () (s.tracked result.operationId readings.now terminalExpiresAt) := by
    cases result.operationId <;> rfl
  suffices hend : ∃ settled, ingestEnd readings terminalExpiresAt result s =
      .ok (result, settled) final by
    obtain ⟨settled, hend⟩ := hend
    exact ⟨settled, final, hend, hsw⟩
  unfold ingestEnd
  rw [bind_of_ok hforM, bind_of_ok (get_eq_ok.2 ⟨rfl, rfl⟩), bind_of_ok hsweep]
  exact ⟨_, rfl⟩

end

/-- **What a transition comes to.** -/
theorem transition_result (readings : Readings ext) (op : Text)
    (change : RuntimeOperationTransition) (h : JournalsSound s) :
    (∃ e, transition readings op change s = .error e s) ∨
    ∃ swept, sweepTerminalHistory readings.now readings.monotonicNow s = .ok () swept ∧
      Swept s swept ∧
      ((∃ e failed, transition readings op change s = .error e failed ∧ SameContent swept failed) ∨
        (swept.records.find? op = none ∧
          transition readings op change s = .ok .evidenceOnly swept) ∨
        ∃ r r₁ disposition middle terminalExpiresAt final, swept.records.find? op = some r ∧
          TransitionApplies readings.clock swept.records op change r r₁ disposition ∧
          Replays readings.clock op { swept with records := swept.records.insert r₁ }
            (replayedModule r change) middle ∧
          transition readings op change s = .ok disposition final ∧
          Swept (trackNewlyTerminalRecord op readings.now terminalExpiresAt middle) final) := by
  unfold transition
  cases he : terminalHistoryExpiry ext readings.monotonicNow with
  | error e => exact .inl ⟨e, bind_of_error rfl⟩
  | ok terminalExpiresAt =>
    obtain ⟨swept, hsweep, hsw⟩ := sweep_swept h readings.now readings.monotonicNow
    refine .inr ⟨swept, hsweep, hsw, ?_⟩
    rw [bind_of_ok (ofExcept_of_ok rfl), bind_of_ok hsweep, bind_of_ok (get_eq_ok.2 ⟨rfl, rfl⟩)]
    cases hf : swept.records.find? op with
    | none =>
      refine .inr (.inl ⟨rfl, ?_⟩)
      exact onRecords_of_ok (applyRuntimeOperationTransition_of_none hf)
    | some r =>
      cases hcap : ensureRecordEventCursorCapacity r (((replayedModule r change).map
            (pendingModuleReplayCount swept · op)).getD 0 + 1) with
      | error e =>
        refine .inl ⟨e, swept, ?_, .refl swept⟩
        exact bind_of_error (ofExcept_of_error hcap)
      | ok _ =>
        have hfits := (h.swept hsw).fits
        refine Or.imp ?_ (fun hdone => .inr ?_)
          (transitionBody_cases readings.clock change hf hfits).symm
        · rintro ⟨e, failed, hbody, hs⟩
          refine ⟨e, failed, ?_, hs⟩
          refine (bind_of_ok (ofExcept_of_ok hcap)).trans ?_
          exact bind_of_error hbody
        · obtain ⟨disposition, r₁, middle, hap, hr, hbody⟩ := hdone
          obtain ⟨final, hend, hfin⟩ := transitionEnd_ok
            ((h.swept hsw).transitioned hf hap hr) readings op
            terminalExpiresAt disposition
          refine ⟨r, r₁, disposition, middle, terminalExpiresAt, final, rfl, hap, hr, ?_, hfin⟩
          refine (bind_of_ok (ofExcept_of_ok hcap)).trans ?_
          exact (bind_of_ok hbody).trans hend

/-- **What a module event comes to.** -/
theorem ingest_result (readings : Readings ext) (event : ModuleEventEnvelope)
    (h : RegistrySound s) :
    (∃ e, ingestModuleEventWithSettlement readings event s = .error e s) ∨
    ∃ swept, sweepTerminalHistory readings.now readings.monotonicNow s = .ok () swept ∧
      Swept s swept ∧
      ((∃ e failed, ingestModuleEventWithSettlement readings event s = .error e failed ∧
          SameContent swept failed) ∨
        ∃ ingress records result middle terminalExpiresAt settled final,
          IngressApplies readings.clock event swept.records ingress records ∧
          Disposes readings.clock event { swept with records } ingress result middle ∧
          JournalsSound { swept with records } ∧
          ingestModuleEventWithSettlement readings event s = .ok (result, settled) final ∧
          Swept (middle.tracked result.operationId readings.now terminalExpiresAt) final) := by
  unfold ingestModuleEventWithSettlement
  cases hexpiry : terminalHistoryExpiry ext readings.monotonicNow with
  | error e => exact .inl ⟨e, bind_of_error rfl⟩
  | ok terminalExpiresAt =>
    obtain ⟨swept, hsweep, hsw, hsound⟩ := h.sweep readings.now readings.monotonicNow
    refine .inr ⟨swept, hsweep, hsw, ?_⟩
    rw [bind_of_ok (ofExcept_of_ok rfl), bind_of_ok hsweep]
    rcases applyModuleEventIngress_result readings.clock event swept.records with
      ⟨ingress, records, hap, hi⟩ | ⟨e, hi⟩
    · rw [bind_of_ok (onRecords_of_ok hi)]
      -- what is deferred has not changed the records
      have hd : (∃ result after,
          Disposes readings.clock event { swept with records } ingress result after ∧
            deferUnclaimed readings.clock event ingress { swept with records } = .ok result after) ∨
          ∃ e, deferUnclaimed readings.clock event ingress { swept with records } =
            .error e { swept with records } ∧ records = swept.records := by
        cases hap with
        | unclaimed =>
          exact (deferUnclaimed_result readings.clock event ingress hsound.journals).imp_right
            fun herr => herr.2.imp fun e he => ⟨he, rfl⟩
        | stale | applied | ambiguous => exact .inl ⟨_, _, .settled (by simp), rfl⟩
      rcases hd with ⟨result, middle, hdisposes, hok⟩ | ⟨e, herr, rfl⟩
      · have hi : JournalsSound { swept with records } :=
          hsound.journals.ingress hsound.records hap
        obtain ⟨settled, final, hend, hfin⟩ := ingestEnd_ok (hi.disposed hdisposes) readings
          terminalExpiresAt result
        exact .inr ⟨ingress, records, result, middle, terminalExpiresAt, settled, final, hap,
          hdisposes, hi, (bind_of_ok hok).trans hend, hfin⟩
      · exact .inl ⟨e, swept, bind_of_error herr, .refl swept⟩
    · exact .inl ⟨e, swept, bind_of_error (onRecords_of_error hi), .refl swept⟩

/-- **What inserting a record comes to.** -/
theorem insert_result (readings : Readings ext) (r : RuntimeOperationRecord ext)
    (h : JournalsSound s) :
    (∃ e, insert readings r s = .error e s) ∨
    ∃ swept, sweepTerminalHistory readings.now readings.monotonicNow s = .ok () swept ∧
      Swept s swept ∧
      ((∃ e, insert readings r s = .error e swept) ∨ ∃ terminalExpiresAt final,
          swept.records.contains r.operation.operationId = false ∧
          (∀ group, r.operation.exclusiveGroup = some group →
            swept.records.records.any (activeOperationInExclusiveGroup · group) = false) ∧
          insert readings r s = .ok () final ∧
          Swept (trackNewlyTerminalRecord r.operation.operationId readings.now terminalExpiresAt
            { swept with records := swept.records.insert r }) final) := by
  unfold insert
  cases hexpiry : terminalHistoryExpiry ext readings.monotonicNow with
  | error e => exact .inl ⟨e, bind_of_error rfl⟩
  | ok terminalExpiresAt =>
    obtain ⟨swept, hsweep, hsw⟩ := sweep_swept h readings.now readings.monotonicNow
    refine .inr ⟨swept, hsweep, hsw, ?_⟩
    rw [bind_of_ok (ofExcept_of_ok rfl), bind_of_ok hsweep, bind_of_ok (get_eq_ok.2 ⟨rfl, rfl⟩)]
    cases hexists : (reject (swept.records.contains r.operation.operationId = true)
        ("runtime operation \x60" ++ r.operation.operationId.toMessage ++
          "\x60 already exists") : Except String Unit) with
    | error e => exact .inl ⟨e, bind_of_error rfl⟩
    | ok u =>
      rw [bind_of_ok (ofExcept_of_ok rfl)]
      cases he : (r.operation.exclusiveGroup.forM fun group =>
          reject (swept.records.records.any (activeOperationInExclusiveGroup · group) = true)
            (exclusiveOperationMessage group) : Except String Unit) with
      | error e => exact .inl ⟨e, bind_of_error rfl⟩
      | ok _ =>
        have hnew : swept.records.contains r.operation.operationId = false := by
          simpa using reject_eq_ok.1 hexists
        obtain ⟨final, hfin, hs⟩ := sweep_swept
          (((h.swept hsw).inserted hnew).track r.operation.operationId readings.now
            terminalExpiresAt) readings.now readings.monotonicNow
        refine .inr ⟨terminalExpiresAt, final, hnew, fun _ hgroup => ?_, ?_, hs⟩
        · rw [hgroup] at he
          simpa using reject_eq_ok.1 he
        · rw [bind_of_ok (ofExcept_of_ok rfl)]
          exact bind_ok_iff.2 ⟨(), _, modify_eq_ok.2 rfl, bind_ok_iff.2
            ⟨(), _, modify_eq_ok.2 rfl, hfin⟩⟩

/-! What a call leaves does not depend on what it answers. -/

theorem left_transition (readings : Readings ext) (op : Text)
    (change : RuntimeOperationTransition) :
    Mutation.left ((RegistryCall.transition op change).perform readings s) =
      Mutation.left (transition readings op change s) :=
  left_discard

theorem left_ingest (readings : Readings ext) (event : ModuleEventEnvelope) :
    Mutation.left ((RegistryCall.ingestModuleEvent event).perform readings s) =
      Mutation.left (ingestModuleEventWithSettlement readings event s) :=
  left_discard

theorem left_inspect (readings : Readings ext) :
    Mutation.left (RegistryCall.inspect.perform readings s) = Mutation.left (inspect readings s) :=
  left_discard

/-- Whatever is called, the journals stay in order. -/
theorem perform_journalsSound (h : RegistrySound s) (readings : Readings ext)
    (call : RegistryCall ext) : JournalsSound (Mutation.left (call.perform readings s)) := by
  cases call with
  | insert op req now =>
    change JournalsSound (Mutation.left (insert readings _ s))
    rcases insert_result readings (runningRuntimeOperationRecord op req now) h.journals
      with ⟨e, heq⟩ | ⟨swept, -, hsw, ⟨e, heq⟩ | ⟨expiry, final, hnew, -, heq, hfin⟩⟩
    all_goals rw [heq]
    · exact h.journals
    · exact h.journals.swept hsw
    · exact (((h.journals.swept hsw).inserted hnew).track _ _ _).swept hfin
  | transition op change =>
    rw [left_transition]
    rcases transition_result readings op change h.journals with
      ⟨e, heq⟩ | ⟨swept, -, hsw, ⟨e, failed, heq, hs⟩ | ⟨-, heq⟩ |
        ⟨r, r₁, disposition, middle, expiry, final, hf, hap, hr, heq, hfin⟩⟩
    all_goals rw [heq]
    · exact h.journals
    · exact (h.journals.swept hsw).swept hs.swept
    · exact h.journals.swept hsw
    · exact (((h.journals.swept hsw).transitioned hf hap hr).track _ _ _).swept hfin
  | ingestModuleEvent event =>
    rw [left_ingest]
    rcases ingest_result readings event h with
      ⟨_, heq⟩ | ⟨swept, -, hsw, ⟨_, _, heq, hs⟩ |
        ⟨ingress, records, result, middle, expiry, settled, final, -, hd, hi, heq, hfin⟩⟩
    all_goals rw [heq]
    · exact h.journals
    · exact (h.journals.swept hsw).swept hs.swept
    · exact ((hi.disposed hd).tracked _ _ _).swept hfin
  | inspect =>
    obtain ⟨_, hsweep, hsw, -⟩ := h.sweep readings.now readings.monotonicNow
    rw [left_inspect, inspect, bind_of_ok hsweep]
    exact h.journals.swept hsw
  | remove op =>
    obtain ⟨_, hok, -⟩ := removeRecord_result h.journals op
    change JournalsSound (Mutation.left (removeRecord op s))
    rw [hok]
    exact h.journals.removed hok

/-- **Whatever is called, what holds of every registry still holds.** -/
theorem perform_registrySound (h : RegistrySound s) (readings : Readings ext)
    (call : RegistryCall ext) : RegistrySound (Mutation.left (call.perform readings s)) := by
  refine ⟨perform_journalsSound h readings call, fun r' hm => ?_⟩
  have he : StateEvolves Advances Sound s (Mutation.left (call.perform readings s)) := by
    refine keeps_perform advances_upheld readings call ?_ s
    cases call <;> first | exact running_sound _ _ _ | trivial
  obtain ⟨r, hr | hsound, ha⟩ := he r' hm
  · exact ha.sound (h.records r hr)
  · exact ha.sound hsound

theorem initial_registrySound : RegistrySound (initial ext) :=
  ⟨fun _ hm => absurd hm not_mem_empty, fun _ hm => absurd hm not_mem_empty⟩

theorem RegistrySound.run (h : RegistrySound s) (calls : List (Readings ext × RegistryCall ext)) :
    RegistrySound (s.run calls) := by
  induction calls generalizing s with
  | nil => exact h
  | cons call _ ih => exact ih (perform_registrySound h call.1 call.2)

/-- **After any calls the registry is sound.** -/
theorem run_registrySound (calls : List (Readings ext × RegistryCall ext)) :
    RegistrySound ((initial ext).run calls) :=
  initial_registrySound.run calls

/-! ### Calls that fail -/

/-- Records and journals are what they were, or what the sweep at the start of the call made of
them. -/
def OnlySwept (readings : Readings ext) (before after : RegistryState ext) : Prop :=
  SameContent before after ∨
  ∃ swept, sweepTerminalHistory readings.now readings.monotonicNow before = .ok () swept ∧
    Swept before swept ∧ SameContent swept after

theorem transition_error (h : RegistrySound s)
    (herr : transition readings op change s = .error e after) :
    OnlySwept readings s after := by
  rcases transition_result readings op change h.journals with
    ⟨_, heq⟩ | ⟨swept, hsweep, hsw, ⟨_, _, heq, hs⟩ | ⟨-, heq⟩ | ⟨_, _, _, _, _, _, _, _, _, heq,
      _⟩⟩
  all_goals rw [heq] at herr; cases herr
  · exact .inl (.refl _)
  · exact .inr ⟨swept, hsweep, hsw, hs⟩

theorem ingest_error (h : RegistrySound s)
    (herr : ingestModuleEventWithSettlement readings event s = .error e after) :
    OnlySwept readings s after := by
  rcases ingest_result readings event h with
    ⟨_, heq⟩ | ⟨swept, hsweep, hsw, ⟨_, _, heq, hs⟩ | ⟨_, _, _, _, _, _, _, _, _, _, heq, _⟩⟩
  all_goals rw [heq] at herr; cases herr
  · exact .inl (.refl _)
  · exact .inr ⟨swept, hsweep, hsw, hs⟩

/-- **A call that fails changes nothing.** Whatever has been called before, a transition or a module
event that fails leaves every record and every journal as it was, apart from what the sweep of the
call has removed or purged. In whatever step it fails, everything that the steps before it did is
taken back. -/
theorem failed_call_only_sweeps (calls : List (Readings ext × RegistryCall ext))
    (readings : Readings ext) :
    (∀ operationId change e after,
      transition readings operationId change ((initial ext).run calls) = .error e after →
      OnlySwept readings ((initial ext).run calls) after) ∧
    (∀ event e after,
      ingestModuleEventWithSettlement readings event ((initial ext).run calls) = .error e after →
      OnlySwept readings ((initial ext).run calls) after) :=
  ⟨fun _ _ _ _ herror => transition_error (run_registrySound calls) herror,
    fun _ _ _ herror => ingest_error (run_registrySound calls) herror⟩

end Consistency

/-- An upload that has failed, and one that still waits for its module. -/
def failedUploadCalls : List (Readings sampleExternals × RegistryCall sampleExternals) :=
  [.insert "a".toList sampleRequest 1000,
    .transition "a".toList (.executionFailed "refused".toList),
    .insert "b".toList sampleRequest 1000].map (sampleReadings, ·)

/-- A day later. -/
def laterReadings : Readings sampleExternals :=
  ⟨1000, 1000 + terminalRecordMaxAgeMillis, fun _ => 1000⟩

/-- A value whose size doubles with the depth. -/
def bulky : ℕ → Json
  | 0 => .string "0123456789abcdef".toList
  | depth + 1 => .array [bulky depth, bulky depth]

/-- An event that takes more than a journal has. -/
def bulkyEvent : ModuleEventEnvelope :=
  ⟨"storage_module".toList, "storageUploadDone".toList, [bulky 14], bulky 14⟩

/-- The event cannot be kept for the second upload, and the call fails. By then the record of the
first one has expired. -/
theorem failed_call_only_sweeps_oversized : ∃ e after,
    ingestModuleEventWithSettlement laterReadings bulkyEvent
      ((initial sampleExternals).run failedUploadCalls) = .error e after ∧
    ((initial sampleExternals).run failedUploadCalls).records.records.length = 2 ∧
    after.records.records.length = 1 ∧
    OnlySwept laterReadings ((initial sampleExternals).run failedUploadCalls) after := by
  obtain ⟨e, after, herror, hlength⟩ := Mutation.exists_of_failsWith
    (m := ingestModuleEventWithSettlement laterReadings bulkyEvent)
    (s := (initial sampleExternals).run failedUploadCalls)
    (p := fun after => after.records.records.length = 1) (by decide +kernel)
  exact ⟨e, after, herror, by decide +kernel, by simpa using hlength,
    (failed_call_only_sweeps failedUploadCalls _).2 _ _ _ herror⟩

end LogosInspector.Operations
