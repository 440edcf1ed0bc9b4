import LogosInspector.Operations.Terminal

/-!
# What ends an operation

From outside the registry, an operation is a status that changes. This file says how: which
transitions end an operation, which leave it waiting for a module, and that apart from transitions
only a module event ends one (`Changed`). For each call it says what becomes of the operation it
is about (`transition_ends`, `transition_waits`), whatever else the call does to the registry.
-/

namespace LogosInspector.Operations

open Mutation Table

section Settlement

variable {ext : OperationExternals}

/-- An operation that waits for a module, or is over. -/
def OperationStatus.isWaiting (status : OperationStatus) : Bool :=
  status = .awaitingExternal || status = .canceling || status.isTerminal

/-- Transitions that do not end an operation. -/
def RuntimeOperationTransition.isGentle : RuntimeOperationTransition → Bool
  | .started | .progress .. | .cancelRequested => true
  | _ => false

/-- Transitions after which an operation is over. -/
def RuntimeOperationTransition.ends : RuntimeOperationTransition → Bool
  | .executionFailed _ | .cancellationConfirmed _ | .timedOut _ | .shutdown _ | .cleanupFailed _
  | .taskPanicked _ | .taskAborted _ | .adapterClosed _ => true
  | _ => false

/-- Whether a module event has ended the operation. -/
def RuntimeOperation.endedByEvent (operation : RuntimeOperation ext) : Bool :=
  operation.terminalReason = some .externalCompletion ||
    operation.terminalReason = some .externalFailure

/-- **What every change does to the status of an operation.** Only where `P` holds, something else
than a module event may end it. -/
structure Changed (P : Text → Prop) (record record' : RuntimeOperationRecord ext) : Prop where
  operationId : record'.operation.operationId = record.operation.operationId
  cancellable : record'.operation.cancellable = record.operation.cancellable
  stays : record.operation.status.isTerminal = true → record'.operation.status.isTerminal = true ∧
    record'.operation.terminalReason = record.operation.terminalReason
  canceling : record.operation.status = .canceling → record'.operation.status = .canceling ∨
    record'.operation.status.isTerminal = true
  waiting : record.operation.status.isWaiting = true → record'.operation.status.isWaiting = true
  ended : record.operation.status.isTerminal = false → record'.operation.status.isTerminal = true →
    record'.operation.endedByEvent = true ∨ P record.operation.operationId
  /-- The request is kept as long as the operation is not over. -/
  request : record'.operation.status.isTerminal = false →
    record'.restartRequest = record.restartRequest

variable {P : Text → Prop} {r r' : RuntimeOperationRecord ext} {clock : WallClock ext}

theorem Changed.of_same (hid : r'.operation.operationId = r.operation.operationId)
    (hc : r'.operation.cancellable = r.operation.cancellable)
    (hs : r'.operation.status = r.operation.status)
    (hr : r'.operation.terminalReason = r.operation.terminalReason)
    (hreq : r'.operation.status.isTerminal = false → r'.restartRequest = r.restartRequest) :
    Changed P r r' where
  operationId := hid
  cancellable := hc
  stays h := ⟨hs ▸ h, hr⟩
  canceling h := .inl (hs.trans h)
  waiting h := hs ▸ h
  ended h h' := by
    rw [hs, h] at h'
    cases h'
  request := hreq

theorem Changed.of_essence (h : r'.essence = r.essence) : Changed P r r' :=
  .of_same (congrArg (·.operation.operationId) h) (congrArg (·.operation.cancellable) h)
    (congrArg (·.operation.status) h) (congrArg (·.operation.terminalReason) h)
    fun _ => congrArg (·.restartRequest) h

instance : Std.Refl (α := RuntimeOperationRecord ext) (Changed P) := ⟨fun _ => .of_essence rfl⟩

instance : IsTrans (RuntimeOperationRecord ext) (Changed P) where
  trans a b c h h' := by
    refine ⟨h'.operationId.trans h.operationId, h'.cancellable.trans h.cancellable, fun ha => ?_,
      fun ha => ?_, fun ha => h'.waiting (h.waiting ha), fun ha hc => ?_, fun hc => ?_⟩
    · obtain ⟨hb, hreason⟩ := h.stays ha
      exact ⟨(h'.stays hb).1, (h'.stays hb).2.trans hreason⟩
    · rcases h.canceling ha with hb | hb
      · exact h'.canceling hb
      · exact .inr (h'.stays hb).1
    · cases hb : b.operation.status.isTerminal with
      | false => exact (h'.ended hb hc).imp_right fun hP => h.operationId ▸ hP
      | true =>
        refine (h.ended ha hb).imp_left fun hevent => ?_
        unfold RuntimeOperation.endedByEvent at hevent ⊢
        rw [(h'.stays hb).2]
        exact hevent
    · refine (h'.request hc).trans (h.request ?_)
      rw [← Bool.not_eq_true]
      intro hb
      simp [(h'.stays hb).1] at hc

/-! ### Changes of one record -/

/-- A change that leaves the operation running. -/
theorem Changed.of_running (hrun : r.operation.status.isTerminal = false)
    (hid : r'.operation.operationId = r.operation.operationId)
    (hcancellable : r'.operation.cancellable = r.operation.cancellable)
    (hstatus : r'.operation.status = r.operation.status ∨ r'.operation.status = .canceling ∨
      r.operation.status ≠ .canceling ∧ r'.operation.status = .awaitingExternal)
    (hreq : r'.restartRequest = r.restartRequest) : Changed P r r' where
  operationId := hid
  cancellable := hcancellable
  stays hover := by simp [hrun] at hover
  canceling hc := by
    rcases hstatus with hs | hstatus | ⟨hne, -⟩
    · exact .inl (hs.trans hc)
    · exact .inl hstatus
    · exact absurd hc hne
  waiting hwait := by
    rcases hstatus with hs | hstatus | ⟨-, hstatus⟩
    · rwa [hs]
    · rw [hstatus]
      rfl
    · rw [hstatus]
      rfl
  ended _ hover := by
    rcases hstatus with hstatus | hstatus | ⟨-, hstatus⟩ <;> rw [hstatus] at hover
    · cases hrun.symm.trans hover
    · cases hover
    · cases hover
  request _ := hreq

variable {status : OperationStatus} {u : Unit} {disposition : TransitionDisposition}

theorem isWaiting_of_isTerminal (h : status.isTerminal = true) : status.isWaiting = true := by
  simp [OperationStatus.isWaiting, h]

/-- Where operations may be ended by everything. -/
theorem keptByEdits_changed : KeptByEdits clock (@Changed ext fun _ => True) where
  push _ _ h := .of_essence (pushEvent_essence h)
  report _ _ _ _ hrun hs := .of_running hrun rfl rfl (hs.imp_right .inl) rfl
  leave _ _ := .of_same rfl rfl rfl rfl fun _ => rfl
  terminate {r _ status _ _ _ _ _ _} hrun hs _ _ h := by
    refine IsTrans.trans _ (r.terminated status _ _ _) _ ?_ (.of_essence (pushEvent_essence h))
    exact ⟨rfl, rfl, fun hover => by simp [hrun] at hover, fun _ => .inr hs,
      fun _ => isWaiting_of_isTerminal hs, fun _ _ => .inr trivial,
      fun hf => by cases hs.symm.trans hf⟩

/-- What ends an operation where it may be ended. -/
theorem Changed.of_allowed (h : Changed (fun _ => True) r r')
    (hP : P r.operation.operationId) : Changed P r r' :=
  { h with ended := fun _ _ => .inr hP }

theorem changed_accepted (acc : ObservableOperationAcceptance)
    (hrun : r.operation.status.isTerminal = false) :
    Changed P r (r.accepted acc) := by
  refine .of_running hrun rfl rfl ?_ rfl
  by_cases hc : r.operation.status = .canceling
  · exact .inr (.inl (if_pos hc))
  · exact .inr (.inr ⟨hc, if_neg hc⟩)

/-- An operation that a module event is applied to is ended by it or stays. -/
theorem applyCorrelatedModuleEvent_changed {event : ModuleEventEnvelope}
    (hrun : r.operation.status.isTerminal = false)
    (h : applyCorrelatedModuleEvent clock event r = .ok u r') :
    Changed P r r' := by
  refine { keptByEdits_changed.of_applyCorrelatedModuleEvent hrun h with
    ended := fun _ hover => .inl ?_ }
  obtain ⟨_, -, h⟩ := applyCorrelatedModuleEvent_eq_ok h
  split_ifs at h
  · obtain ⟨_, _, _, _, h⟩ := h
    cases hover.symm.trans (pushEvent_running h hrun)
  all_goals
    obtain ⟨_, h⟩ := h
    unfold RuntimeOperation.endedByEvent
    rw [show r'.operation.terminalReason = _ from
      congrArg (·.operation.terminalReason) (terminalize_essence h)]
    rfl

/-- **Every change of a record**, with the transitions that may end an operation limited. -/
theorem changed_upheld (P : Text → Prop) : Upheld (fun op change => change.isGentle = true ∨ P op)
      (Changed P : _ → RuntimeOperationRecord ext → Prop) where
  evidence _ hpush := .of_essence (pushEvent_essence hpush)
  event hrun hok := applyCorrelatedModuleEvent_changed hrun hok
  rejected hrun hall hok :=
    (keptByEdits_changed.of_rejectAcceptance hrun hok).of_allowed
      (hall.resolve_left (by simp [RuntimeOperationTransition.isGentle]))
  transition {clock _ _ change _} hrun hall hok := by
    rcases hall with hgen | hP
    · -- what is gentle only reports
      have hr : KeptByReports clock (Changed P) :=
        ⟨fun _ _ h => .of_essence (pushEvent_essence h), fun _ _ _ _ hrun hs =>
          .of_running hrun rfl rfl (hs.imp_right .inl) rfl⟩
      cases change with
      | started | progress | cancelRequested =>
        exact hr.of_applyTransition hrun (fun _ h => by cases h) rfl hok
      | _ => cases hgen
    · refine Changed.of_allowed (keptByEdits_changed.of_applyTransition hrun ?_ ?_ hok) hP
      · exact fun _ _ _ => .of_running hrun rfl rfl (.inr (.inl rfl)) rfl
      · exact fun acc _ => changed_accepted acc hrun
  purged r _ := by
    unfold RuntimeOperationRecord.purged
    split <;> exact .of_same rfl rfl rfl rfl fun _ => rfl
  tracked r _ _ hover := .of_same rfl rfl rfl rfl fun hrun => by
    rw [show (r.tracked _ _).operation.status = r.operation.status from rfl, hover] at hrun
    cases hrun

/-! ### Where a transition leads -/

/-- The statuses that a transition can lead to. -/
def RuntimeOperationTransition.LeadsTo (change : RuntimeOperationTransition)
    (operation : RuntimeOperation ext) (status : OperationStatus) : Prop :=
  match change with
  | .started | .progress .. => status = operation.status
  | .cancelRequested => status = operation.status ∨ status = .canceling
  | .resolved (.accepted _) =>
    status = if operation.status = .canceling then .canceling else .awaitingExternal
  | .cleanupUnconfirmed _ => status = .canceling
  | .cancellationUnconfirmed _ => status = .canceling ∨
    (operation.cancellable = false ∧ status = operation.status)
  | _ => status.isTerminal = true

theorem terminalize_over {middle : RuntimeOperationRecord ext}
    {result : Option Json} {error : Option Text} {reason : TerminalReason} {phase : EventPhase}
    {msg : String} {terminalProgress : TerminalProgress}
    (h : terminalize clock status result error reason phase msg terminalProgress middle =
      .ok u r') (hs : status.isTerminal = true) :
    r'.operation.status.isTerminal = true :=
  (congrArg (·.operation.status.isTerminal) (terminalize_essence h)).trans hs

/-- What a request to cancel does. It is only applied if the operation is cancellable. -/
theorem applyCancelRequested_leadsTo (h : applyCancelRequested clock r = .ok disposition r') :
    (r'.operation.status = .canceling ∨ (r.operation.cancellable = false ∧
      r'.operation.status = r.operation.status)) ∧
      (disposition = .applied → r.operation.cancellable = true) := by
  simp only [applyCancelRequested, get_bind] at h
  split_ifs at h with hcancellable hc
  · simp only [bind_ok_iff, pure_ok_iff, push_eq_ok] at h
    obtain ⟨_, _, h, rfl, rfl⟩ := h
    exact ⟨.inr ⟨hcancellable, congrArg (·.operation.status) (pushEvent_essence h)⟩, by simp⟩
  · simp only [bind_ok_iff, pure_ok_iff, push_eq_ok] at h
    obtain ⟨_, _, h, rfl, rfl⟩ := h
    exact ⟨.inl ((congrArg (·.operation.status) (pushEvent_essence h)).trans hc), by simp⟩
  · simp only [modifyOperation, bind_ok_iff, modify_eq_ok, pure_ok_iff, push_eq_ok] at h
    obtain ⟨_, _, rfl, _, _, h, rfl, rfl⟩ := h
    exact ⟨.inl (congrArg (·.operation.status) (pushEvent_essence h)),
      fun _ => by simpa using hcancellable⟩

theorem applyTransition_leadsTo {change : RuntimeOperationTransition}
    (h : applyTransition clock change r = .ok disposition r') :
    change.LeadsTo r.operation r'.operation.status := by
  have hends (hset : transitionSettlesPendingModule change = true)
      (hacc : ∀ acc, change ≠ .resolved (.accepted acc)) :
      r'.operation.status.isTerminal = true := by
    obtain ⟨_, -, _, _, _, _, _, _, _, _, hstatus, -, -, h⟩ := applyTransition_ends hset hacc h
    exact terminalize_over h hstatus
  cases change with
  | started =>
    simp only [applyTransition, bind_ok_iff, pure_ok_iff, push_eq_ok] at h
    obtain ⟨_, _, h, -, rfl⟩ := h
    exact congrArg (·.operation.status) (pushEvent_essence h)
  | progress =>
    simp only [applyTransition, modifyOperation, bind_ok_iff, modify_eq_ok, get_eq_ok,
      pure_ok_iff, push_eq_ok] at h
    obtain ⟨_, _, rfl, _, _, ⟨rfl, rfl⟩, _, _, h, -, rfl⟩ := h
    exact congrArg (·.operation.status) (pushEvent_essence h)
  | resolved outcome =>
    cases outcome with
    | completed | dispatched => exact hends rfl (by simp)
    | accepted =>
      obtain ⟨_, _, h⟩ := applyTransition_accepted_eq_ok h
      exact congrArg (·.operation.status) (pushEvent_essence h)
  | cancelRequested =>
    exact (applyCancelRequested_leadsTo h).1.elim .inr fun hs => .inl hs.2
  | cancellationUnconfirmed =>
    simp only [applyTransition, get_bind] at h
    split_ifs at h with hcanceling
    all_goals simp only [bind_ok_iff, get_eq_ok, pure_ok_iff, push_eq_ok] at h
    · obtain ⟨_, _, ⟨-, rfl⟩, _, _, ⟨rfl, rfl⟩, _, _, h, -, rfl⟩ := h
      exact .inl ((congrArg (·.operation.status) (pushEvent_essence h)).trans hcanceling)
    · obtain ⟨_, _, hc, _, _, ⟨rfl, rfl⟩, _, _, h, -, rfl⟩ := h
      have hs := congrArg (·.operation.status) (pushEvent_essence h)
      exact (applyCancelRequested_leadsTo hc).1.imp hs.trans (And.imp_right hs.trans)
  | cleanupUnconfirmed =>
    simp only [applyTransition, modifyOperation, bind_ok_iff, modify_eq_ok, get_eq_ok] at h
    obtain ⟨_, _, ⟨rfl, rfl⟩, _, _, rfl, h⟩ := h
    by_cases herr : r.operation.error.isNone = true
    · rw [if_pos herr] at h
      simp only [bind_ok_iff, modify_eq_ok, pure_ok_iff, push_eq_ok] at h
      obtain ⟨_, _, rfl, _, _, h, -, rfl⟩ := h
      exact congrArg (·.operation.status) (pushEvent_essence h)
    · rw [if_neg herr] at h
      simp only [bind_ok_iff, pure_ok_iff, push_eq_ok] at h
      obtain ⟨_, _, h, -, rfl⟩ := h
      exact congrArg (·.operation.status) (pushEvent_essence h)
  | executionFailed | cancellationConfirmed | timedOut | shutdown | cleanupFailed | taskPanicked
  | taskAborted | adapterClosed => exact hends rfl (by simp)

/-! ### Calls -/

section Calls

variable {s s' : RegistryState ext} {readings : Readings ext} {op : Text}
  {change : RuntimeOperationTransition} {disposition : TransitionDisposition}

/-- The registry after a call, compared with the registry before. -/
abbrev RegistryChanged (P : Text → Prop) : RegistryState ext → RegistryState ext → Prop :=
  StateEvolves (Changed P) fun _ => False

theorem RegistryChanged.origin (h : RegistryChanged P s s')
    (hm : r' ∈ s'.records) : ∃ r ∈ s.records, Changed P r r' := by
  obtain ⟨r, hr | hnew, hch⟩ := h r' hm
  · exact ⟨r, hr, hch⟩
  · exact hnew.elim

theorem transition_changed (hok : transition readings op change s = .ok disposition s')
    (hall : change.isGentle = true ∨ P op) : RegistryChanged P s s' :=
  (keeps_transition (changed_upheld P) readings hall s).of_ok hok

variable {records : Records ext} {result : ModuleEventIngressResult}

theorem inspect_changed (hok : inspect readings s = .ok records s') : RegistryChanged P s s' :=
  (keeps_inspect (changed_upheld P) readings s).of_ok hok

/-- What is looked at is what the registry has then. -/
theorem inspect_records (hok : inspect readings s = .ok records s') : s'.records = records := by
  simp only [inspect, bind_ok_iff, get_eq_ok, pure_ok_iff] at hok
  obtain ⟨_, _, -, _, _, ⟨rfl, rfl⟩, rfl, rfl⟩ := hok
  rfl

theorem remove_changed {u : Unit} (hok : remove op s = .ok u s') : RegistryChanged P s s' :=
  (keeps_removeRecord op s).of_ok hok

variable {event : ModuleEventEnvelope}

theorem ingest_changed {a : ModuleEventIngressResult × Option Text}
    (hok : ingestModuleEventWithSettlement readings event s = .ok a s') :
    RegistryChanged P s s' :=
  (keeps_ingestModuleEventWithSettlement (changed_upheld P) readings event s).of_ok hok

/-- The operation that a module event is said to have ended is over. -/
theorem ingest_settled (hok : ingestModuleEventWithSettlement readings event s =
      .ok (result, some op) s') (hm : r' ∈ s'.records)
    (hid : r'.operation.operationId = op) :
    r'.operation.status.isTerminal = true := by
  simp only [ingestModuleEventWithSettlement, bind_ok_iff, ofExcept_eq_ok,
    get_eq_ok, pure_ok_iff] at hok
  obtain ⟨_, _, -, _, _, -, _, _, -, _, _, -, _, _, -, _, _, ⟨rfl, rfl⟩, _, swept, hsweep,
    heq, rfl⟩ := hok
  obtain ⟨-, hset⟩ := Prod.mk.inj heq
  obtain ⟨-, hover⟩ := Option.filter_eq_some_iff.1 hset
  obtain ⟨r, hr, ht⟩ := (Option.any_eq_true _ _).1 hover
  have hch : RegistryChanged (fun _ => True) _ swept :=
    (keeps_sweepTerminalHistory (changed_upheld _) _ _ _).of_ok hsweep
  obtain ⟨origin, ho, hfrom⟩ := hch.origin hm
  have hs : some origin = some r :=
    (find?_eq_some.2 ⟨ho, hfrom.operationId.symm.trans hid⟩).symm.trans hr
  cases hs
  exact (hfrom.stays ht).1

/-- The record of the operation that a transition is about, at the time when it is applied. -/
theorem transition_eq_ok (hok : transition readings op change s = .ok disposition s') :
    (∃ swept : RegistryState ext, RegistryChanged P s swept ∧
        swept.records.find? op = none ∧ swept.records = s'.records ∧
        disposition = .evidenceOnly) ∨
      ∃ (swept : RegistryState ext) (r r₁ : RuntimeOperationRecord ext),
        RegistryChanged P s swept ∧ swept.records.find? op = some r ∧
        TransitionApplies readings.clock swept.records op change r r₁ disposition ∧
        RegistryChanged P { swept with records := swept.records.insert r₁ } s' := by
  simp only [transition, bind_ok_iff, ofExcept_eq_ok, get_eq_ok] at hok
  obtain ⟨_, _, ⟨-, rfl⟩, _, swept, hsweep, _, _, ⟨rfl, rfl⟩, hok⟩ := hok
  have hsw : RegistryChanged P _ swept :=
    (keeps_sweepTerminalHistory (changed_upheld P) _ _ _).of_ok hsweep
  cases hf : swept.records.find? op with rw [hf] at hok
  | none =>
    obtain ⟨records, happly, rfl⟩ := onRecords_eq_ok.1 hok
    cases (applyRuntimeOperationTransition_of_none hf).symm.trans happly
    exact .inl ⟨swept, hsw, hf, rfl, rfl⟩
  | some r =>
    simp only [bind_ok_iff, ofExcept_eq_ok, Mutation.onError_eq_ok,
      modify_eq_ok, pure_ok_iff] at hok
    obtain ⟨_, _, ⟨-, rfl⟩, _, _, ⟨_, _, happly, _, _, hr, rfl, rfl⟩, _, _, rfl,
      _, _, hsweep', rfl, rfl⟩ := hok
    obtain ⟨_, ha, rfl⟩ := onRecords_eq_ok.1 happly
    obtain ⟨r₁, hap, rfl⟩ := exists_transitionApplies hf ha
    refine .inr ⟨swept, r, r₁, hsw, hf, hap, ?_⟩
    refine IsTrans.trans _ _ _ ((Keeps.optionForM (fun moduleName =>
      keeps_replayPendingModuleEvents (changed_upheld P) moduleName op) _).of_ok hr) ?_
    exact IsTrans.trans _ _ _ (trackNewlyTerminalRecord_evolves (changed_upheld P) _ _ _ _)
      ((keeps_sweepTerminalHistory (changed_upheld P) _ _ _).of_ok hsweep')

/-- **What a transition makes of the operation that it is about.** `Before` and `After` are
properties that other changes of the operation do not touch. -/
theorem transition_target (Before After : RuntimeOperationRecord ext → Prop)
    (hBefore : ∀ r r' : RuntimeOperationRecord ext, Changed (fun _ => True) r r' →
      Before r → Before r')
    (hAfter : ∀ r r' : RuntimeOperationRecord ext, Changed (fun _ => True) r r' →
      After r → After r')
    (hover : ∀ r : RuntimeOperationRecord ext, r.operation.status.isTerminal = true → After r)
    (hlead : ∀ r r' : RuntimeOperationRecord ext, Before r →
      change.LeadsTo r.operation r'.operation.status → After r')
    (hstart : ∀ r ∈ s.records, r.operation.operationId = op → Before r)
    (hok : transition readings op change s = .ok disposition s')
    (hm : r' ∈ s'.records) (hid : r'.operation.operationId = op) :
    After r' := by
  rcases transition_eq_ok hok with ⟨swept, -, hn, heq, -⟩ | ⟨swept, r, r₁, hsw, hf, hap, hrest⟩
  · exact absurd hid (find?_eq_none.1 hn r' (heq ▸ hm))
  · obtain ⟨hr, hrec⟩ := find?_eq_some.1 hf
    have hb : Before r := by
      obtain ⟨origin, ho, hfrom⟩ := hsw.origin hr
      exact hBefore _ _ hfrom (hstart origin ho (hfrom.operationId.symm.trans hrec))
    have ha : Changed (fun _ => True) r r₁ :=
      (changed_upheld _).applies (.inr trivial) hap
    have hafter : After r₁ := by
      cases hap with
      | stale ht => exact hover _ (ha.stays ht).1
      | rejected _ _ hreject =>
        simp only [rejectAcceptance, bind_ok_iff, modify_eq_ok, pure_ok_iff] at hreject
        obtain ⟨_, _, -, _, _, hterminalize, -, rfl⟩ := hreject
        exact hover _ (terminalize_over hterminalize rfl)
      | applied _ _ happly => exact hlead _ _ hb (applyTransition_leadsTo happly)
    obtain ⟨_, ho, hfrom⟩ := hrest.origin hm
    rcases mem_insert.1 ho with rfl | ⟨-, hne⟩
    · exact hAfter _ _ hfrom hafter
    · have hid₁ := ha.operationId.trans hrec
      exact absurd (hfrom.operationId.symm.trans (hid.trans hid₁.symm)) hne

/-- **A transition that ends an operation** leaves it over. -/
theorem transition_ends (hok : transition readings op change s = .ok disposition s')
    (hends : change.ends = true) (hm : r' ∈ s'.records)
    (hid : r'.operation.operationId = op) :
    r'.operation.status.isTerminal = true :=
  transition_target (fun _ => True) (·.operation.status.isTerminal = true) (fun _ _ _ h => h)
    (fun _ _ hch h => (hch.stays h).1) (fun _ h => h)
    (fun _ _ _ hlead => by cases change <;> first | exact hlead | cases hends)
    (fun _ _ _ => trivial) hok hm hid

/-- An operation that a cancellation can do something about. -/
def Stoppable (record : RuntimeOperationRecord ext) : Prop :=
  record.operation.cancellable = true ∨ record.operation.status = .canceling ∨
    record.operation.status.isTerminal = true

theorem Stoppable.changed (h : Stoppable r) (hch : Changed P r r') : Stoppable r' := by
  rcases h with h | h | h
  · exact .inl (hch.cancellable.trans h)
  · exact .inr (hch.canceling h)
  · exact .inr (.inr (hch.stays h).1)

/-- **A transition that is not gentle** leaves the operation waiting for a module, or over. If it
says that a cancellation is not confirmed, the operation has to be one that can be canceled. -/
theorem transition_waits (hok : transition readings op change s = .ok disposition s')
    (hgen : change.isGentle = false)
    (hs : (∃ error, change = .cancellationUnconfirmed error) →
      ∀ r ∈ s.records, r.operation.operationId = op → Stoppable r)
    (hm : r' ∈ s'.records) (hid : r'.operation.operationId = op) :
    r'.operation.status.isWaiting = true := by
  refine transition_target
    (fun r => (∃ error, change = .cancellationUnconfirmed error) → Stoppable r)
    (·.operation.status.isWaiting = true) (fun _ _ hch h hc => (h hc).changed hch)
    (fun _ _ hch h => hch.waiting h) (fun _ h => isWaiting_of_isTerminal h) ?_
    (fun r hr hrec hc => hs hc r hr hrec) hok hm hid
  intro _ r' hb hlead
  cases change with
  | started | progress | cancelRequested => cases hgen
  | resolved outcome =>
    cases outcome with
    | accepted =>
      rw [show r'.operation.status = _ from hlead]
      split_ifs <;> rfl
    | _ => exact isWaiting_of_isTerminal hlead
  | cleanupUnconfirmed =>
    rw [show r'.operation.status = .canceling from hlead]
    rfl
  | cancellationUnconfirmed error =>
    rcases hlead with hlead | ⟨hcancellable, hlead⟩ <;> rw [hlead]
    · rfl
    · rcases hb ⟨error, rfl⟩ with h | h | h
      · simp [hcancellable] at h
      · rw [h]
        rfl
      · exact isWaiting_of_isTerminal h
  | _ => exact isWaiting_of_isTerminal hlead

/-- **A cancellation that is applied** is one of an operation that can be canceled. -/
theorem transition_cancelable (hok : transition readings op .cancelRequested s = .ok .applied s')
    (hm : r' ∈ s'.records) (hid : r'.operation.operationId = op) :
    Stoppable r' := by
  rcases transition_eq_ok (P := fun _ => True) hok with ⟨swept, -, hn, heq, -⟩ |
    ⟨swept, r, r₁, -, hf, hap, hrest⟩
  · exact absurd hid (find?_eq_none.1 hn r' (heq ▸ hm))
  · have hs : Changed (fun _ => True) r r₁ :=
      (changed_upheld _).applies (.inr trivial) hap
    cases hap with
    | rejected _ hprob => cases hprob
    | applied _ _ hc =>
      obtain ⟨-, hcancellable⟩ := applyCancelRequested_leadsTo hc
      obtain ⟨_, ho, hfrom⟩ := hrest.origin hm
      rcases mem_insert.1 ho with rfl | ⟨-, hne⟩
      · exact .inl (hfrom.cancellable.trans (hs.cancellable.trans (hcancellable rfl)))
      · exact absurd (hfrom.operationId.symm.trans
          (hid.trans ((find?_eq_some.1 hf).2.symm.trans hs.operationId.symm))) hne

/-- What a transition is applied to is in the registry. -/
theorem transition_recorded (hok : transition readings op change s = .ok .applied s') :
    ∃ r ∈ s.records, r.operation.operationId = op := by
  rcases transition_eq_ok (P := fun _ => True) hok with ⟨swept, -, -, -, he⟩ |
    ⟨swept, r, _, hsw, hf, -, -⟩
  · cases he
  · obtain ⟨hr, hid⟩ := find?_eq_some.1 hf
    obtain ⟨origin, ho, hfrom⟩ := hsw.origin hr
    exact ⟨origin, ho, hfrom.operationId.symm.trans hid⟩

/-- What a module event has ended was in the registry. -/
theorem ingest_recorded (hok : ingestModuleEventWithSettlement readings event s =
      .ok (result, some op) s') :
    ∃ r ∈ s.records, r.operation.operationId = op := by
  simp only [ingestModuleEventWithSettlement, bind_ok_iff, ofExcept_eq_ok,
    get_eq_ok, pure_ok_iff] at hok
  obtain ⟨_, _, ⟨-, rfl⟩, _, _, hsweep, _, _, hi, _, _, hdef, _, _, htrack, _, _,
    ⟨rfl, rfl⟩, _, _, -, heq, -⟩ := hok
  obtain ⟨-, hset⟩ := Prod.mk.inj heq
  obtain ⟨-, hover⟩ := Option.filter_eq_some_iff.1 hset
  obtain ⟨_, hr, -⟩ := (Option.any_eq_true _ _).1 hover
  obtain ⟨hm, hid⟩ := find?_eq_some.1 hr
  have hu : Upheld _ (Changed (fun _ => True) : _ → RuntimeOperationRecord ext → Prop) :=
    changed_upheld _
  have hch : RegistryChanged (fun _ => True) s _ :=
    IsTrans.trans _ _ _ ((keeps_sweepTerminalHistory hu _ _ _).of_ok hsweep) <|
    IsTrans.trans _ _ _ ((keepsAt_onRecords
      (hu.keeps_applyModuleEventIngress event _)).of_ok hi) <|
    IsTrans.trans _ _ _ ((keeps_deferUnclaimed hu event _ _).of_ok hdef) <|
    (Keeps.optionForM (fun _ => Keeps.modify
      (trackNewlyTerminalRecord_evolves hu _ _ _)) _).of_ok htrack
  obtain ⟨origin, ho, hfrom⟩ := hch.origin hm
  exact ⟨origin, ho, hfrom.operationId.symm.trans hid⟩

/-- A record that is put in is new, and not over; the others change. -/
theorem insert_changed (P : Text → Prop) (readings : Readings ext) (op : Text)
    (req : RuntimeOperationRequest ext) (now : ℕ) (s : RegistryState ext) :
    KeepsAt (StateEvolves (Changed P) (runningRuntimeOperationRecord op req now = ·)) s
      (insert readings (runningRuntimeOperationRecord op req now)) :=
  keeps_insert (changed_upheld P) readings rfl s

end Calls

end Settlement

end LogosInspector.Operations
