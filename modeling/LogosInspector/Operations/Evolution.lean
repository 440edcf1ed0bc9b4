import LogosInspector.Operations.Registry

/-!
# What a call does to the records

Four ways lead to the record of an operation: transitions, module events that arrive after the
operation was accepted, deferred events that are replayed to it, and the sweeps. They come down to
a few changes of one record: evidence is added, a module event is applied, a transition is applied
or an acceptance turned down, the end is noted, a payload is purged. A preorder `A` between
records that each of these keeps (`Upheld`) is kept by every call of the registry, in the sense
that every record of the later state is in this relation to one of the earlier state, or to one
that was inserted (`Evolves`). So an invariant of records is proved from the changes of one record,
and the loops of the registry are gone through only here.
-/

namespace LogosInspector.Operations

open Mutation List Table

variable {ext : OperationExternals} {clock : WallClock ext} {op : Text}
  {change : RuntimeOperationTransition} {r : RuntimeOperationRecord ext}
  {event : ModuleEventEnvelope} {disposition : TransitionDisposition}

variable {u : Unit}

section Applying

variable {r₁ : RuntimeOperationRecord ext}

theorem push_eq_ok {phase : EventPhase} {message : String} {progress : Option ext.F64}
    {result : Option Json} {error : Option Text} :
    push clock phase message progress result error r = .ok u r₁ ↔
      pushEvent clock r phase message progress result error = .ok r₁ :=
  attempt_eq_ok

theorem onRecords_eq_ok {α : Type} {m : Mutation (Records ext) α} {a : α}
    {s s' : RegistryState ext} :
    onRecords m s = .ok a s' ↔
      ∃ records, m s.records = .ok a records ∧ s' = { s with records } := by
  unfold onRecords
  rw [zoom_eq_ok]
  exact exists_congr fun _ => and_congr_right fun _ => eq_comm

/-! ### What is done to one record -/

theorem applyCorrelatedModuleEvent_eq_ok (h : applyCorrelatedModuleEvent clock event r = .ok u r₁) :
    ∃ contract, r.operation.terminalEvent = some contract ∧
      if contract.progressEvent = some event.eventName then
        ∃ message progress result error, pushEvent clock
          { r with operation := applyModuleEventProgress event true r.operation } .externalProgress
          message progress result error = .ok r₁
      else if event.failed contract then
        ∃ message, terminalize clock .failed none (some (event.error.getD
            ("module event \x60".toList ++ event.eventName ++ "\x60 reported failure".toList)))
          .externalFailure .failed message .preserve
          { r with operation := applyModuleEventProgress event false r.operation } = .ok u r₁
      else
        ∃ message, terminalize clock .completed (some (event.result ext)) none .externalCompletion
          .completed message .complete
          { r with operation := applyModuleEventProgress event false r.operation } = .ok u r₁ := by
  simp only [applyCorrelatedModuleEvent, get_bind] at h
  cases hc : r.operation.terminalEvent with rw [hc] at h
  | none => exact absurd h throw_eq_ok
  | some contract =>
    refine ⟨contract, rfl, ?_⟩
    simp only [modifyOperation] at h
    split_ifs at h ⊢
    · simp only [bind_ok_iff, modify_eq_ok, get_eq_ok, push_eq_ok] at h
      obtain ⟨_, _, rfl, _, _, ⟨rfl, rfl⟩, h⟩ := h
      exact ⟨_, _, _, _, h⟩
    all_goals
      simp only [bind_ok_iff, modify_eq_ok] at h
      obtain ⟨_, _, rfl, h⟩ := h
      exact ⟨_, h⟩

theorem applyTransition_accepted_eq_ok {acc : ObservableOperationAcceptance}
    (h : applyTransition clock (.resolved (.accepted acc)) r = .ok disposition r₁) :
    ∃ message progress, pushEvent clock (r.accepted acc) .accepted message progress none none =
      .ok r₁ := by
  simp only [applyTransition, applyOutcome, bind_ok_iff, modify_eq_ok, get_eq_ok,
    pure_ok_iff, push_eq_ok] at h
  obtain ⟨_, _, rfl, _, _, rfl, _, _, ⟨rfl, rfl⟩, _, _, h, -, rfl⟩ := h
  exact ⟨_, _, h⟩

/-- **A transition that settles an operation and is not its acceptance ends it.** -/
theorem applyTransition_ends (hset : transitionSettlesPendingModule change = true)
    (hacc : ∀ acc, change ≠ .resolved (.accepted acc))
    (h : applyTransition clock change r = .ok disposition r₁) :
    ∃ middle, (middle = r ∨ ∃ acknowledgement, middle = { r with
        operation := { r.operation with acknowledgement }, pendingModuleName := none }) ∧
      ∃ status result error reason phase message terminalProgress u,
        status.isTerminal = true ∧ phase.eventClass = .terminal ∧
        (result ≠ none → status = .completed) ∧
        terminalize clock status result error reason phase message terminalProgress middle =
          .ok u r₁ := by
  cases change with
  | started | progress | cancelRequested | cancellationUnconfirmed | cleanupUnconfirmed =>
    cases hset
  | resolved outcome =>
    simp only [applyTransition, applyOutcome, bind_ok_iff, modify_eq_ok] at h
    obtain ⟨_, _, rfl, h⟩ := h
    cases outcome with
    | completed =>
      simp only [bind_ok_iff, pure_ok_iff] at h
      obtain ⟨_, _, h, -, rfl⟩ := h
      exact ⟨_, .inr ⟨_, rfl⟩, _, _, _, _, _, _, _, _, rfl, rfl, fun _ => rfl, h⟩
    | accepted acc => exact absurd rfl (hacc acc)
    | dispatched =>
      simp only [modifyOperation, bind_ok_iff, modify_eq_ok, pure_ok_iff] at h
      obtain ⟨_, _, rfl, _, _, h, -, rfl⟩ := h
      exact ⟨_, .inr ⟨_, rfl⟩, _, _, _, _, _, _, _, _, rfl, rfl, fun hne => absurd rfl hne, h⟩
  | executionFailed =>
    simp only [applyTransition, applyFailure, bind_ok_iff, modify_eq_ok, pure_ok_iff] at h
    obtain ⟨_, _, rfl, _, _, h, -, rfl⟩ := h
    exact ⟨_, .inr ⟨_, rfl⟩, _, _, _, _, _, _, _, _, rfl, rfl, fun hne => absurd rfl hne, h⟩
  | cancellationConfirmed | timedOut | shutdown | cleanupFailed | taskPanicked | taskAborted
  | adapterClosed =>
    simp only [applyTransition, applyFailure, bind_ok_iff, pure_ok_iff] at h
    obtain ⟨_, _, h, -, rfl⟩ := h
    exact ⟨r, .inl rfl, _, _, _, _, _, _, _, _, rfl, rfl, fun hne => absurd rfl hne, h⟩

/-! ### Applying a transition -/

/-- Why a transition is turned down, if it is. -/
def acceptanceProblem (records : Records ext) (operationId : Text) :
    RuntimeOperationTransition → Option AcceptedCorrelationProblem
  | .resolved (.accepted acceptance) =>
    acceptedCorrelationProblem records operationId acceptance.correlation acceptance.terminalEvent
  | _ => none

/-- **What a transition does to the record of its operation.** -/
inductive TransitionApplies (clock : WallClock ext) (records : Records ext) (operationId : Text)
    (change : RuntimeOperationTransition) (record record₁ : RuntimeOperationRecord ext) :
    TransitionDisposition → Prop
  /-- The operation was over. -/
  | stale (hover : record.operation.status.isTerminal = true)
      (hpush : pushEvent clock record .staleTransition (staleTransitionMessage change)
        none none none = .ok record₁) :
      TransitionApplies clock records operationId change record record₁ .stale
  /-- A module has accepted it, but with an id that cannot be used. -/
  | rejected {disposition : TransitionDisposition} {problem : AcceptedCorrelationProblem}
      (hrunning : record.operation.status.isTerminal = false)
      (hproblem : acceptanceProblem records operationId change = some problem)
      (hreject : rejectAcceptance clock change problem record = .ok disposition record₁) :
      TransitionApplies clock records operationId change record record₁ disposition
  | applied {disposition : TransitionDisposition}
      (hrunning : record.operation.status.isTerminal = false)
      (hproblem : acceptanceProblem records operationId change = none)
      (happly : applyTransition clock change record = .ok disposition record₁) :
      TransitionApplies clock records operationId change record record₁ disposition

theorem applyRuntimeOperationTransition_eq (records : Records ext)
    (hf : records.find? op = some r) :
    applyRuntimeOperationTransition clock op change records =
      if r.operation.status.isTerminal then
        (do
          mutateRecord r
            (push clock .staleTransition (staleTransitionMessage change) none none none)
          pure .stale : Mutation (Records ext) TransitionDisposition) records
      else
        mutateRecord r (applyRecordMutation (match acceptanceProblem records op change with
          | some problem => rejectAcceptance clock change problem
          | none => applyTransition clock change)) records := by
  unfold applyRuntimeOperationTransition
  rw [bind_of_ok (get_eq_ok.2 ⟨rfl, rfl⟩), hf]
  dsimp only
  split_ifs with ht
  · rfl
  · change (match acceptanceProblem records op change with
      | some problem =>
        mutateRecord r (applyRecordMutation (rejectAcceptance clock change problem))
      | none => mutateRecord r (applyRecordMutation (applyTransition clock change))) records = _
    cases acceptanceProblem records op change <;> rfl

variable {records records' : Records ext}

theorem mutateRecord_cases {α : Type} {m : Mutation (RuntimeOperationRecord ext) α}
    (hmem : r ∈ records)
    (herr : ∀ e r₁, m r = .error e r₁ → r₁ = r) :
    (∃ a r₁, m r = .ok a r₁ ∧ mutateRecord r m records = .ok a (records.insert r₁)) ∨
      ∃ e, mutateRecord r m records = .error e records := by
  unfold mutateRecord
  cases hm : m r with
  | ok a r₁ => exact .inl ⟨a, r₁, rfl, rfl⟩
  | error e r₁ =>
    obtain rfl := herr e r₁ hm
    exact .inr ⟨e, congrArg (EStateM.Result.error e) (insert_self hmem)⟩

/-- **A transition is applied, or nothing has changed.** -/
theorem applyRuntimeOperationTransition_result (clock : WallClock ext)
    (change : RuntimeOperationTransition)
    (hf : records.find? op = some r) :
    (∃ disposition r₁, TransitionApplies clock records op change r r₁ disposition ∧
        applyRuntimeOperationTransition clock op change records =
          .ok disposition (records.insert r₁)) ∨
      ∃ e, applyRuntimeOperationTransition clock op change records = .error e records := by
  have hm := (find?_eq_some.1 hf).1
  rw [applyRuntimeOperationTransition_eq records hf]
  split_ifs with ht
  · rcases mutateRecord_cases (m := push clock .staleTransition (staleTransitionMessage change) none
      none none) hm fun _ _ h => Mutation.attempt_error h with ⟨_, r₁, hpush, hmutate⟩ | ⟨e,
        hmutate⟩
    · exact .inl ⟨_, r₁, .stale ht (push_eq_ok.1 hpush), bind_of_ok hmutate⟩
    · exact .inr ⟨e, bind_of_error hmutate⟩
  · have hrun : r.operation.status.isTerminal = false := by simpa using ht
    rcases mutateRecord_cases (m := applyRecordMutation _) hm fun _ _ h => restoring_error h with
      ⟨_, r₁, happly, hmutate⟩ | ⟨e, hmutate⟩
    · refine .inl ⟨_, r₁, ?_, hmutate⟩
      rw [applyRecordMutation, restoring_eq_ok] at happly
      cases hprob : acceptanceProblem records op change with rw [hprob] at happly
      | some _ => exact .rejected hrun hprob happly
      | none => exact .applied hrun hprob happly
    · exact .inr ⟨e, hmutate⟩

theorem applyRuntimeOperationTransition_of_none (hf : records.find? op = none) :
    applyRuntimeOperationTransition clock op change records = .ok .evidenceOnly records := by
  unfold applyRuntimeOperationTransition
  rw [bind_of_ok (get_eq_ok.2 ⟨rfl, rfl⟩), hf]
  rfl

theorem exists_transitionApplies (hf : records.find? op = some r)
    (h : applyRuntimeOperationTransition clock op change records = .ok disposition records') :
    ∃ r₁, TransitionApplies clock records op change r r₁ disposition ∧
      records' = records.insert r₁ := by
  rcases applyRuntimeOperationTransition_result clock change hf with
    ⟨_, r₁, hap, heq⟩ | ⟨_, heq⟩
  · cases heq.symm.trans h
    exact ⟨r₁, hap, rfl⟩
  · cases heq.symm.trans h

/-! ### Applying a module event -/

/-- The records of the operations that wait for a module event. -/
abbrev correlatedRecords (event : ModuleEventEnvelope) (records : Records ext) :
    List (RuntimeOperationRecord ext) :=
  records.records.filter (correlatesEvent event ·.operation)

/-- **What a module event does to the records.** -/
inductive IngressApplies (clock : WallClock ext) (event : ModuleEventEnvelope)
    (records : Records ext) : ModuleEventIngressResult → Records ext → Prop
  /-- No operation waits for it. -/
  | unclaimed {result : ModuleEventIngressResult} (hnone : correlatedRecords event records = [])
      (hresult : result = .unknown ∨ ∃ operationIds, result = .uncorrelated operationIds) :
      IngressApplies clock event records result records
  /-- The operation is over. -/
  | stale {record record₁ : RuntimeOperationRecord ext}
      (hone : correlatedRecords event records = [record])
      (hover : record.operation.status.isTerminal = true)
      (hpush : pushEvent clock record .staleModuleEvent "module event arrived after terminal state"
        none (some (event.result ext)) event.error = .ok record₁) :
      IngressApplies clock event records (.stale record.operation.operationId)
        (records.insert record₁)
  | applied {record record₁ : RuntimeOperationRecord ext}
      (hone : correlatedRecords event records = [record])
      (hrunning : record.operation.status.isTerminal = false)
      (happly : applyCorrelatedModuleEvent clock event record = .ok () record₁) :
      IngressApplies clock event records (.applied record.operation.operationId)
        (records.insert record₁)
  /-- Several operations wait for it. -/
  | ambiguous {first second : RuntimeOperationRecord ext}
      {others : List (RuntimeOperationRecord ext)}
      (hmany : correlatedRecords event records = first :: second :: others) :
      IngressApplies clock event records
        (.ambiguous ((first :: second :: others).map (·.operation.operationId))) records

theorem mem_of_correlatedRecords (h : correlatedRecords event records = [r]) :
    r ∈ records ∧ correlatesEvent event r.operation = true := by
  have hm : r ∈ correlatedRecords event records := by
    rw [h]
    exact mem_cons_self
  exact List.mem_filter.1 hm

theorem applyModuleEventIngress_result (clock : WallClock ext) (event : ModuleEventEnvelope)
    (records : Records ext) :
    (∃ result records', IngressApplies clock event records result records' ∧
        applyModuleEventIngress clock event records = .ok result records') ∨
      ∃ e, applyModuleEventIngress clock event records = .error e records := by
  unfold applyModuleEventIngress
  rw [bind_of_ok (get_eq_ok.2 ⟨rfl, rfl⟩)]
  cases hc : records.records.filter (correlatesEvent event ·.operation) with
  | nil =>
    split_ifs
    · exact .inl ⟨_, _, .unclaimed hc (.inl rfl), rfl⟩
    · exact .inl ⟨_, _, .unclaimed hc (.inr ⟨_, rfl⟩), rfl⟩
  | cons r others =>
    cases others with
    | cons _ _ => exact .inl ⟨_, _, .ambiguous hc, rfl⟩
    | nil =>
      have hm : r ∈ records := (mem_of_correlatedRecords hc).1
      dsimp only
      split_ifs with ht
      · rcases mutateRecord_cases (m := push clock .staleModuleEvent
          "module event arrived after terminal state" none (some (event.result ext)) event.error) hm
          fun _ _ h => Mutation.attempt_error h with ⟨_, r₁, hpush, hmutate⟩ | ⟨e, hmutate⟩
        · exact .inl ⟨_, _, .stale hc ht (push_eq_ok.1 hpush), bind_of_ok hmutate⟩
        · exact .inr ⟨e, bind_of_error hmutate⟩
      · have hrun : r.operation.status.isTerminal = false := by simpa using ht
        rcases mutateRecord_cases
          (m := applyRecordMutation (applyCorrelatedModuleEvent clock event)) hm
          fun _ _ h => restoring_error h with ⟨_, r₁, happly, hmutate⟩ | ⟨e, hmutate⟩
        · exact .inl ⟨_, _, .applied hc hrun (restoring_eq_ok.1 happly), bind_of_ok hmutate⟩
        · exact .inr ⟨e, bind_of_error hmutate⟩

theorem ingressApplies_of_ok {result : ModuleEventIngressResult}
    (h : applyModuleEventIngress clock event records = .ok result records') :
    IngressApplies clock event records result records' := by
  rcases applyModuleEventIngress_result clock event records with ⟨_, _, hap, heq⟩ | ⟨_, heq⟩
  · cases heq.symm.trans h
    exact hap
  · cases heq.symm.trans h

end Applying

section Evolution

/-! ### What is done to an operation that is not over -/

/-- **A relation between records that is kept by what an operation reports while it goes on.** -/
structure KeptByReports (clock : WallClock ext)
    (R : RuntimeOperationRecord ext → RuntimeOperationRecord ext → Prop) : Prop where
  push : ∀ {record record' phase message progress result error},
    record.operation.status.isTerminal = false → phase.eventClass ≠ .terminal →
    pushEvent clock record phase message progress result error = .ok record' → R record record'
  report : ∀ {record : RuntimeOperationRecord ext} status bytesWritten contentLength progress,
    record.operation.status.isTerminal = false →
    status = record.operation.status ∨ status = .canceling →
    R record
      { record with
        operation := { record.operation with status, bytesWritten, contentLength, progress } }

/-- **A relation between records that is kept by what is done to an operation that is not over.**
Two things are left to the theorem about transitions: an adapter could not clean up, and a module
has accepted the operation. -/
structure KeptByEdits (clock : WallClock ext)
    (R : RuntimeOperationRecord ext → RuntimeOperationRecord ext → Prop) : Prop
    extends KeptByReports clock R where
  leave : ∀ {record : RuntimeOperationRecord ext} acknowledgement,
    record.operation.status.isTerminal = false →
    R record
      { record with
        operation := { record.operation with acknowledgement }, pendingModuleName := none }
  terminate : ∀ {record record' : RuntimeOperationRecord ext} {status result error reason phase
    message progress}, record.operation.status.isTerminal = false → status.isTerminal = true →
    phase.eventClass = .terminal → (result ≠ none → status = .completed) →
    pushEvent clock (record.terminated status result error reason) phase message progress
      none none = .ok record' → R record record'

/-- The record of an operation that an adapter could not clean up after. -/
def RuntimeOperationRecord.uncleaned (record : RuntimeOperationRecord ext) (error : Text) :
    RuntimeOperationRecord ext :=
  { record with
    operation :=
      { record.operation with
        status := .canceling
        error := (boundedTerminalOperationError (some error)).1 }
    errorRedactedBytes := (boundedTerminalOperationError (some error)).2 }

variable {phase : EventPhase} {message : String} {progress : Option ext.F64} {result : Option Json}
  {error : Option Text}

theorem pushEvent_running {r' : RuntimeOperationRecord ext}
    (h : pushEvent clock r phase message progress result error = .ok r')
    (hrun : r.operation.status.isTerminal = false) :
    r'.operation.status.isTerminal = false :=
  (congrArg (·.operation.status.isTerminal) (pushEvent_essence h)).trans hrun

theorem accepted_running (r : RuntimeOperationRecord ext) (acc : ObservableOperationAcceptance) :
    (r.accepted acc).operation.status.isTerminal = false := by
  simp only [RuntimeOperationRecord.accepted]
  split_ifs <;> rfl

variable {r' : RuntimeOperationRecord ext}

section Edits

variable {R : RuntimeOperationRecord ext → RuntimeOperationRecord ext → Prop}
  [IsTrans (RuntimeOperationRecord ext) R] (hrun : r.operation.status.isTerminal = false)
include hrun

theorem KeptByReports.of_applyCancelRequested (hR : KeptByReports clock R)
    (h : applyCancelRequested clock r = .ok disposition r') :
    R r r' ∧ r'.operation.status.isTerminal = false := by
  simp only [applyCancelRequested, get_bind] at h
  split_ifs at h
  · simp only [bind_ok_iff, pure_ok_iff, push_eq_ok] at h
    obtain ⟨_, _, h, -, rfl⟩ := h
    exact ⟨hR.push hrun (by decide) h, pushEvent_running h hrun⟩
  · simp only [bind_ok_iff, pure_ok_iff, push_eq_ok] at h
    obtain ⟨_, _, h, -, rfl⟩ := h
    exact ⟨hR.push hrun (by decide) h, pushEvent_running h hrun⟩
  · simp only [modifyOperation, bind_ok_iff, modify_eq_ok, pure_ok_iff, push_eq_ok] at h
    obtain ⟨_, _, rfl, _, _, h, -, rfl⟩ := h
    exact ⟨Trans.trans (hR.report _ _ _ _ hrun (.inr rfl)) (hR.push rfl (by decide) h),
      pushEvent_running h rfl⟩

/-- **A transition that does not settle an operation only reports.** -/
theorem KeptByReports.of_applyTransition (hR : KeptByReports clock R)
    (hc : ∀ error, change = .cleanupUnconfirmed error → r.operation.error = none →
      R r (r.uncleaned error))
    (hset : transitionSettlesPendingModule change = false)
    (h : applyTransition clock change r = .ok disposition r') : R r r' := by
  cases change with
  | started =>
    simp only [applyTransition, bind_ok_iff, pure_ok_iff, push_eq_ok] at h
    obtain ⟨_, _, h, -, rfl⟩ := h
    exact hR.push hrun (by decide) h
  | progress =>
    simp only [applyTransition, modifyOperation, bind_ok_iff, modify_eq_ok, get_eq_ok,
      pure_ok_iff, push_eq_ok] at h
    obtain ⟨_, _, rfl, _, _, ⟨rfl, rfl⟩, _, _, h, -, rfl⟩ := h
    exact Trans.trans (hR.report _ _ _ _ hrun (.inl rfl))
      (hR.push (by exact hrun) (by decide) h)
  | cancelRequested => exact (hR.of_applyCancelRequested hrun h).1
  | cancellationUnconfirmed =>
    simp only [applyTransition, get_bind] at h
    split_ifs at h
    all_goals simp only [bind_ok_iff, get_eq_ok, pure_ok_iff, push_eq_ok] at h
    · obtain ⟨_, _, ⟨-, rfl⟩, _, _, ⟨rfl, rfl⟩, _, _, h, -, rfl⟩ := h
      exact hR.push hrun (by decide) h
    · obtain ⟨_, _, hcancel, _, _, ⟨rfl, rfl⟩, _, _, h, -, rfl⟩ := h
      obtain ⟨hfirst, hmid⟩ := hR.of_applyCancelRequested hrun hcancel
      exact Trans.trans hfirst (hR.push hmid (by decide) h)
  | cleanupUnconfirmed error =>
    simp only [applyTransition, modifyOperation, bind_ok_iff, modify_eq_ok, get_eq_ok] at h
    obtain ⟨_, _, ⟨rfl, rfl⟩, _, _, rfl, h⟩ := h
    by_cases herr : r.operation.error.isNone = true
    · rw [if_pos herr] at h
      simp only [bind_ok_iff, modify_eq_ok, pure_ok_iff, push_eq_ok] at h
      obtain ⟨_, _, rfl, _, _, h, -, rfl⟩ := h
      exact Trans.trans (hc error rfl (Option.isNone_iff_eq_none.1 herr))
        (hR.push rfl (by decide) h)
    · rw [if_neg herr] at h
      simp only [bind_ok_iff, pure_ok_iff, push_eq_ok] at h
      obtain ⟨_, _, h, -, rfl⟩ := h
      exact Trans.trans (hR.report _ _ _ _ hrun (.inr rfl)) (hR.push rfl (by decide) h)
  | _ => cases hset

variable (hR : KeptByEdits clock R)

include hR

omit [IsTrans (RuntimeOperationRecord ext) R] in
theorem KeptByEdits.of_terminalize {status : OperationStatus} {reason : TerminalReason}
    {terminalProgress : TerminalProgress}
    (h : terminalize clock status result error reason phase message terminalProgress r =
      .ok u r') (hs : status.isTerminal = true) (hphase : phase.eventClass = .terminal)
    (hres : result ≠ none → status = .completed) : R r r' := by
  simp only [terminalize, bind_ok_iff, get_eq_ok, set_eq_ok, push_eq_ok] at h
  obtain ⟨_, _, ⟨rfl, rfl⟩, _, _, rfl, h⟩ := h
  exact hR.terminate hrun hs hphase hres h

theorem KeptByEdits.of_rejectAcceptance {problem : AcceptedCorrelationProblem}
    (h : rejectAcceptance clock change problem r = .ok disposition r') :
    R r r' := by
  simp only [rejectAcceptance, bind_ok_iff, modify_eq_ok, pure_ok_iff] at h
  obtain ⟨_, _, rfl, _, _, h, -, rfl⟩ := h
  exact Trans.trans (hR.leave _ hrun)
    (hR.of_terminalize (by exact hrun) h rfl rfl fun hne => absurd rfl hne)

theorem KeptByEdits.of_applyCorrelatedModuleEvent
    (h : applyCorrelatedModuleEvent clock event r = .ok u r') : R r r' := by
  obtain ⟨_, -, h⟩ := applyCorrelatedModuleEvent_eq_ok h
  split_ifs at h
  · obtain ⟨_, _, _, _, h⟩ := h
    exact Trans.trans (hR.report _ _ _ _ hrun (.inl rfl))
      (hR.push (by exact hrun) (by decide) h)
  all_goals
    obtain ⟨_, h⟩ := h
    exact Trans.trans (hR.report _ _ _ _ hrun (.inl rfl))
      (hR.of_terminalize (by exact hrun) h rfl rfl (by simp))

/-- **Every transition of an operation that is not over.** -/
theorem KeptByEdits.of_applyTransition
    (hc : ∀ error, change = .cleanupUnconfirmed error → r.operation.error = none →
      R r (r.uncleaned error))
    (hacc : ∀ acc, change = .resolved (.accepted acc) → R r (r.accepted acc))
    (h : applyTransition clock change r = .ok disposition r') : R r r' := by
  cases hset : transitionSettlesPendingModule change with
  | false => exact hR.toKeptByReports.of_applyTransition hrun hc hset h
  | true =>
    by_cases hex : ∃ acc, change = .resolved (.accepted acc)
    · obtain ⟨acc, rfl⟩ := hex
      obtain ⟨_, _, h⟩ := applyTransition_accepted_eq_ok h
      exact Trans.trans (hacc acc rfl) (hR.push (accepted_running r acc) (by decide) h)
    obtain ⟨_, hmid, _, _, _, _, _, _, _, _, hs, hphase, hres, hend⟩ :=
      applyTransition_ends hset (not_exists.1 hex) h
    rcases hmid with rfl | ⟨_, rfl⟩
    · exact hR.of_terminalize hrun hend hs hphase hres
    · exact Trans.trans (hR.leave _ hrun)
        (hR.of_terminalize (by exact hrun) hend hs hphase hres)

end Edits

/-- **A relation between records that every change of a record keeps.** Transitions may be limited
to the `allowed` ones. -/
structure Upheld (allowed : Text → RuntimeOperationTransition → Prop)
    (A : RuntimeOperationRecord ext → RuntimeOperationRecord ext → Prop) : Prop where
  evidence : ∀ {clock record record' phase message progress result error},
    phase.eventClass = .evidence →
    pushEvent clock record phase message progress result error = .ok record' → A record record'
  event : ∀ {clock record record' event u}, record.operation.status.isTerminal = false →
    applyCorrelatedModuleEvent clock event record = .ok u record' → A record record'
  rejected : ∀ {clock record record' acceptance problem disposition},
    record.operation.status.isTerminal = false →
    allowed record.operation.operationId (.resolved (.accepted acceptance)) →
    rejectAcceptance clock (.resolved (.accepted acceptance)) problem record =
      .ok disposition record' → A record record'
  transition : ∀ {clock record record' transition disposition},
    record.operation.status.isTerminal = false → allowed record.operation.operationId transition →
    applyTransition clock transition record = .ok disposition record' → A record record'
  purged : ∀ record, (record.operation.result.isSome || record.operation.acknowledgement.isSome) =
    true → A record record.purged.1
  tracked : ∀ record terminalAt terminalExpiresAt, record.operation.status.isTerminal = true →
    A record (record.tracked terminalAt terminalExpiresAt)

/-- It is enough to consider what is done to one record. -/
theorem Upheld.of_edits {allowed : Text → RuntimeOperationTransition → Prop}
    {A : RuntimeOperationRecord ext → RuntimeOperationRecord ext → Prop}
    [IsTrans (RuntimeOperationRecord ext) A] (hedits : ∀ clock, KeptByEdits clock A)
    (hc : ∀ r error, r.operation.status.isTerminal = false →
      r.operation.error = none → allowed r.operation.operationId (.cleanupUnconfirmed error) →
      A r (r.uncleaned error))
    (hacc : ∀ r acc, r.operation.status.isTerminal = false →
      allowed r.operation.operationId (.resolved (.accepted acc)) →
      A r (r.accepted acc))
    (he : ∀ {clock r r' phase message progress result error},
      phase.eventClass = .evidence → r.operation.status.isTerminal = true →
      pushEvent clock r phase message progress result error = .ok r' → A r r')
    (hpurge : ∀ r, (r.operation.result.isSome || r.operation.acknowledgement.isSome) =
      true → A r r.purged.1)
    (ht : ∀ r terminalAt terminalExpiresAt, r.operation.status.isTerminal = true →
      A r (r.tracked terminalAt terminalExpiresAt)) : Upheld allowed A where
  evidence {clock r _ _ _ _ _ _} hphase h := by
    cases hover : r.operation.status.isTerminal with
    | false => exact (hedits clock).push hover (by simp [hphase]) h
    | true => exact he hphase hover h
  event hrun h := (hedits _).of_applyCorrelatedModuleEvent hrun h
  rejected hrun _ h := (hedits _).of_rejectAcceptance hrun h
  transition hrun hall h := (hedits _).of_applyTransition hrun
    (fun error heq herr => hc _ error hrun herr (heq ▸ hall))
    (fun acc heq => hacc _ acc hrun (heq ▸ hall)) h
  purged := hpurge
  tracked := ht

/-- **What a call does to the records**: each is related to one of those before, or to one that is
`new`. -/
def Evolves (A : RuntimeOperationRecord ext → RuntimeOperationRecord ext → Prop)
    (new : RuntimeOperationRecord ext → Prop) (before after : Records ext) : Prop :=
  ∀ record' ∈ after, ∃ record, (record ∈ before ∨ new record) ∧ A record record'

/-- What a call does to the records of a registry. -/
def StateEvolves (A : RuntimeOperationRecord ext → RuntimeOperationRecord ext → Prop)
    (new : RuntimeOperationRecord ext → Prop) (before after : RegistryState ext) : Prop :=
  Evolves A new before.records after.records

/-- What a call may do: its transition is allowed, and what it inserts is new. -/
def RegistryCall.Permitted (allowed : Text → RuntimeOperationTransition → Prop)
    (new : RuntimeOperationRecord ext → Prop) : RegistryCall ext → Prop
  | .insert operationId request now => new (runningRuntimeOperationRecord operationId request now)
  | .transition operationId change => allowed operationId change
  | _ => True

variable {allowed : Text → RuntimeOperationTransition → Prop}
  {A : RuntimeOperationRecord ext → RuntimeOperationRecord ext → Prop}
  {new : RuntimeOperationRecord ext → Prop} {before after : Records ext}

theorem keepsAt_onRecords {α : Type} {m : Mutation (Records ext) α} {s : RegistryState ext}
    (h : KeepsAt (Evolves A new) s.records m) :
    KeepsAt (StateEvolves A new) s (onRecords m) :=
  .zoom h fun _ h => h

variable [Std.Refl A]

instance : Std.Refl (α := Records ext) (Evolves A new) :=
  ⟨fun _ record hmem => ⟨record, .inl hmem, Std.Refl.refl record⟩⟩

/-- One record is changed. -/
theorem Evolves.insert (hm : r ∈ before) (h : A r r') :
    Evolves A new before (before.insert r') := by
  intro other ho
  rcases mem_insert.1 ho with rfl | ⟨ho, -⟩
  · exact ⟨r, .inl hm, h⟩
  · exact ⟨other, .inl ho, Std.Refl.refl other⟩

/-- A record is put in. -/
theorem Evolves.insert_new (hnew : new r) : Evolves A new before (before.insert r) := by
  intro other ho
  rcases mem_insert.1 ho with rfl | ⟨ho, -⟩
  · exact ⟨other, .inr hnew, Std.Refl.refl other⟩
  · exact ⟨other, .inl ho, Std.Refl.refl other⟩

/-- Records are removed. -/
theorem Evolves.of_subset (h : ∀ r ∈ after, r ∈ before) : Evolves A new before after :=
  fun r hm => ⟨r, .inl (h r hm), Std.Refl.refl r⟩

/-- A record is put back. -/
theorem Evolves.restore (h : Evolves A new before after) (hm : r ∈ before) :
    Evolves A new before (after.insert r) := by
  intro other ho
  rcases mem_insert.1 ho with rfl | ⟨ho, -⟩
  · exact ⟨other, .inl hm, Std.Refl.refl other⟩
  · exact h other ho

theorem keepsAt_mutateRecord {α : Type} {m : Mutation (RuntimeOperationRecord ext) α}
    (hmem : r ∈ before) (h : KeepsAt A r m) :
    KeepsAt (Evolves A new) before (mutateRecord r m) := by
  refine .of_result (fun _ after hok => ?_) fun _ _ herr => ?_
  · cases hm : m r with
    | ok _ _ =>
      simp only [mutateRecord, hm] at hok
      cases hok
      exact .insert hmem (h.of_ok hm)
    | error _ _ => simp [mutateRecord, hm] at hok
  · cases hm : m r with
    | ok _ _ => simp [mutateRecord, hm] at herr
    | error _ _ =>
      simp only [mutateRecord, hm] at herr
      cases herr
      exact .insert hmem (h.of_error hm)

/-! ### The functions of the registry -/

theorem Upheld.keeps_applyDeferredModuleEvent (h : Upheld allowed A) (event : ModuleEventEnvelope) :
    Keeps A (applyDeferredModuleEvent clock event) := by
  refine Keeps.restoring fun r _ _ hok => ?_
  simp only [get_bind] at hok
  cases hc : r.operation.terminalEvent with rw [hc] at hok
  | none =>
    simp only [bind_ok_iff, pure_ok_iff] at hok
    obtain ⟨_, _, hok, -, rfl⟩ := hok
    exact h.evidence rfl (push_eq_ok.1 hok)
  | some _ =>
    simp only at hok
    split_ifs at hok with hu ht
    all_goals simp only [bind_ok_iff, pure_ok_iff] at hok
    all_goals obtain ⟨_, _, hok, -, rfl⟩ := hok
    · exact h.evidence rfl (push_eq_ok.1 hok)
    · exact h.evidence rfl (push_eq_ok.1 hok)
    · exact h.event (by simpa using ht) hok

omit [Std.Refl A] in
/-- What a transition does to the record of its operation. -/
theorem Upheld.applies (h : Upheld allowed A) {records : Records ext}
    (hall : allowed r.operation.operationId change)
    (hap : TransitionApplies clock records op change r r' disposition) :
    A r r' := by
  cases hap with
  | stale _ hpush => exact h.evidence rfl hpush
  | rejected hrun hprob hr =>
    -- only an acceptance can have a problem
    unfold acceptanceProblem at hprob
    split at hprob
    · exact h.rejected hrun hall hr
    · cases hprob
  | applied hrun _ happly => exact h.transition hrun hall happly

theorem Upheld.keeps_applyModuleEventIngress (h : Upheld allowed A) (event : ModuleEventEnvelope) :
    Keeps (Evolves A new) (applyModuleEventIngress clock event) := by
  refine fun records => .of_result (fun _ records' hok => ?_) fun _ _ herr => ?_
  · cases ingressApplies_of_ok hok with
    | unclaimed | ambiguous => exact Std.Refl.refl records
    | stale hone _ hpush => exact .insert (mem_of_correlatedRecords hone).1 (h.evidence rfl hpush)
    | applied hone hrun happly =>
      exact .insert (mem_of_correlatedRecords hone).1 (h.event hrun happly)
  · rcases applyModuleEventIngress_result clock event records with ⟨_, _, -, heq⟩ | ⟨_, heq⟩
    · cases heq.symm.trans herr
    · cases heq.symm.trans herr
      exact Std.Refl.refl records

theorem Upheld.keeps_applyRuntimeOperationTransition (h : Upheld allowed A)
    {transition : RuntimeOperationTransition} (hall : allowed op transition) :
    Keeps (Evolves A new) (applyRuntimeOperationTransition clock op transition) := by
  intro records
  cases hf : records.find? op with
  | none =>
    unfold KeepsAt
    rw [applyRuntimeOperationTransition_of_none hf]
    exact Std.Refl.refl records
  | some _ =>
    obtain ⟨hm, rfl⟩ := find?_eq_some.1 hf
    unfold KeepsAt
    rcases applyRuntimeOperationTransition_result clock transition hf with
      ⟨_, _, hap, heq⟩ | ⟨_, heq⟩
    · rw [heq]
      exact .insert hm (h.applies hall hap)
    · rw [heq]
      exact Std.Refl.refl records

variable [IsTrans (RuntimeOperationRecord ext) A]

instance : IsTrans (Records ext) (Evolves A new) where
  trans _ _ _ h h' record'' hmem := by
    obtain ⟨record', hmem', hlast⟩ := h' record'' hmem
    rcases hmem' with hmem' | hnew
    · obtain ⟨record, hmem, hfirst⟩ := h record' hmem'
      exact ⟨record, hmem, Trans.trans hfirst hlast⟩
    · exact ⟨record', .inr hnew, hlast⟩

instance : Std.Refl (α := RegistryState ext) (StateEvolves A new) :=
  ⟨fun state => Std.Refl.refl state.records⟩

instance : IsTrans (RegistryState ext) (StateEvolves A new) :=
  ⟨fun a b c => IsTrans.trans a.records b.records c.records⟩

theorem keeps_removeRecord (op : Text) : Keeps (StateEvolves A new)
      (removeRecord op : Mutation (RegistryState ext) Unit) := by
  refine Keeps.get_bind fun s => ?_
  refine .bind (Keeps.ofExcept _ s) fun _ _ h => ?_
  obtain ⟨-, rfl⟩ := ofExcept_eq_ok.1 h
  exact Evolves.of_subset fun _ hm => (mem_erase.1 hm).1

theorem keeps_evictTerminalRecords (fuel : ℕ) : Keeps (StateEvolves A new)
      (evictTerminalRecords fuel : Mutation (RegistryState ext) Unit) := by
  induction fuel with
  | zero => exact Keeps.pure _
  | succ _ ih =>
    refine Keeps.get_bind fun s => ?_
    split_ifs
    · split
      · exact ih s
      · refine .bind (.of_result ?_ ?_) fun _ t _ =>
          .bind (keeps_removeRecord _ t) fun _ t _ => ih t
        · intro _ t h
          rw [← set_eq_ok.1 h]
          exact Std.Refl.refl s.records
        · intro _ _ h
          cases h
    · exact Keeps.pure _ s

section Calls

variable (upheld : Upheld allowed A)

include upheld

variable {s s' : RegistryState ext}

omit [IsTrans (RuntimeOperationRecord ext) A] in
theorem purgeOldestTerminalPayload_evolves
    (h : purgeOldestTerminalPayload s = some s') : StateEvolves A new s s' := by
  simp only [purgeOldestTerminalPayload, Option.bind_eq_bind, Option.bind_eq_some_iff,
    Option.pure_def, Option.some.injEq] at h
  obtain ⟨r, hf, rfl⟩ := h
  obtain ⟨_, -, hm⟩ := mem_filterMap.1 (mem_of_find?_eq_some hf)
  have hp := find?_some hf
  exact Evolves.insert (find?_eq_some.1 hm).1 (upheld.purged r hp)

theorem purgeTerminalPayloads_evolves (fuel : ℕ) (s : RegistryState ext) :
    StateEvolves A new s (purgeTerminalPayloads fuel s) := by
  induction fuel generalizing s with
  | zero => exact Std.Refl.refl s
  | succ _ ih =>
    unfold purgeTerminalPayloads
    split_ifs
    · split
      · exact Std.Refl.refl s.records
      · next s' h =>
        exact IsTrans.trans _ _ _ (purgeOldestTerminalPayload_evolves upheld h) (ih s')
    · exact Std.Refl.refl s

theorem keeps_sweepTerminalHistory (now monotonicNow : ℕ) : Keeps (StateEvolves A new)
      (sweepTerminalHistory now monotonicNow : Mutation (RegistryState ext) Unit) := by
  refine Keeps.bind (Keeps.modify fun s => Std.Refl.refl s.records)
    fun _ => Keeps.get_bind fun s => ?_
  refine .bind (Keeps.forM (fun id _ => keeps_removeRecord id) s) fun _ s _ => ?_
  refine (Keeps.get_bind fun s => ?_ : Keeps _ _) s
  exact .bind (keeps_evictTerminalRecords _ s) fun _ s _ =>
    Keeps.modify (fun s => purgeTerminalPayloads_evolves upheld _ s) s

omit [IsTrans (RuntimeOperationRecord ext) A] in
theorem trackNewlyTerminalRecord_evolves (op : Text) (terminalAt terminalExpiresAt : ℕ)
    (s : RegistryState ext) :
    StateEvolves A new s (trackNewlyTerminalRecord op terminalAt terminalExpiresAt s) := by
  unfold trackNewlyTerminalRecord
  split
  · exact Std.Refl.refl s
  · next r hf =>
    split_ifs with h
    · exact Std.Refl.refl s
    · simp only [not_or, Bool.not_eq_false] at h
      exact Evolves.insert (find?_eq_some.1 hf).1 (upheld.tracked _ _ _ h.1)

theorem pushModuleEvent_evolves {missing : Option String}
    {records records' : Records ext} {operationIds : List Text}
    (h : pushModuleEvent clock phase message missing event records operationIds = .ok records')
    (hphase : phase.eventClass = .evidence) : Evolves A new records records' := by
  refine foldlM_induction (P := Evolves A new records) h (Std.Refl.refl records) ?_
  intro current _ next _ hcur hstep
  refine IsTrans.trans _ _ _ hcur ?_
  split at hstep
  · cases hstep
    exact Std.Refl.refl current
  · cases hstep
  · next r _ hf =>
    simp only [bind_eq_ok, pure_eq_ok] at hstep
    obtain ⟨_, hpush, rfl⟩ := hstep
    exact .insert (find?_eq_some.1 hf).1 (upheld.evidence hphase hpush)

theorem deferModuleEvent_evolves {candidateOperationIds : List Text}
    (h : deferModuleEvent clock event candidateOperationIds s = .ok s') :
    StateEvolves A new s s' := by
  simp only [deferModuleEvent, bind_eq_ok, pure_eq_ok] at h
  obtain ⟨_, _, _, _, ⟨_, _, _⟩, _, _, _, overflowed, ho, _, hdef, _, _, rfl⟩ := h
  have hstart : Evolves A new s.records overflowed :=
    foldlM_induction (P := Evolves A new s.records) ho (Std.Refl.refl _) fun _ _ _ _ hcur hstep =>
        IsTrans.trans _ _ _ hcur (pushModuleEvent_evolves upheld hstep rfl)
  exact IsTrans.trans (r := Evolves A new) _ _ _ hstart (pushModuleEvent_evolves upheld hdef rfl)

theorem keeps_replayEvents (op : Text) (events : List PendingModuleEvent)
    (retained : PendingModuleEventJournal) :
    Keeps (StateEvolves A new) (replayEvents clock op events retained) := by
  induction events generalizing retained with
  | nil =>
    refine Keeps.modify fun s => ?_
    split_ifs <;> exact Std.Refl.refl s.records
  | cons _ _ ih =>
    unfold replayEvents
    split_ifs with hcand
    · refine Keeps.get_bind fun s => ?_
      split
      · exact Keeps.throw _ s
      · next r hf =>
        have hm : r ∈ s.records := (find?_eq_some.1 hf).1
        refine .handle ?_ (fun error t _ => ?_) fun _ t _ => ?_
        · exact keepsAt_onRecords
            (keepsAt_mutateRecord hm (upheld.keeps_applyDeferredModuleEvent _ r))
        · refine .bind (Keeps.ofExcept _ t) fun retained t _ =>
            .bind (Keeps.modify (fun s => ?_) t) fun _ t _ =>
              Keeps.throw error t
          exact Std.Refl.refl s.records
        · dsimp only
          split_ifs
          · exact ih retained t
          · exact .bind (Keeps.ofExcept _ t) fun retained t _ => ih retained t
    · exact Keeps.bind (Keeps.ofExcept _) fun retained => ih retained

theorem keeps_replayPendingModuleEvents (moduleName op : Text) : Keeps (StateEvolves A new)
      (replayPendingModuleEvents clock moduleName op) := by
  refine Keeps.get_bind fun s => ?_
  refine .bind (Keeps.ofExcept _ s) fun _ t _ => ?_
  split
  · exact Keeps.pure _ t
  · refine .bind (Keeps.modify (fun s => ?_) t) fun _ t _ => ?_
    · exact Std.Refl.refl s.records
    · exact .bind (Keeps.ofExcept _ t) fun _ t _ => keeps_replayEvents upheld _ _ _ t

/-! ### The calls -/

section

variable (readings : Readings ext)

include readings

theorem keeps_inspect : Keeps (StateEvolves A new) (inspect readings) := by
  refine Keeps.bind (keeps_sweepTerminalHistory upheld _ _) fun _ => ?_
  exact Keeps.get_bind fun s => Keeps.pure _ s

omit readings in
theorem keeps_deferUnclaimed (event : ModuleEventEnvelope) (result : ModuleEventIngressResult) :
    Keeps (StateEvolves A new) (deferUnclaimed clock event result) := by
  have hdef : ∀ candidates : List Text, Keeps (StateEvolves A new)
      (Mutation.attempt (deferModuleEvent clock event candidates)) := fun _ =>
    Keeps.attempt fun _ _ h => deferModuleEvent_evolves upheld h
  refine Keeps.get_bind fun s => ?_
  dsimp only
  split
  case h_3 => exact Keeps.pure _ s
  all_goals
    split_ifs
    · exact Keeps.pure _ s
    · exact .bind (hdef _ s) fun _ t _ => Keeps.pure _ t

theorem keeps_ingestModuleEventWithSettlement (event : ModuleEventEnvelope) :
    Keeps (StateEvolves A new) (ingestModuleEventWithSettlement readings event) := by
  refine Keeps.bind (Keeps.ofExcept _) fun _ => ?_
  refine Keeps.bind (keeps_sweepTerminalHistory upheld _ _) fun _ => ?_
  refine Keeps.bind
    (fun s => keepsAt_onRecords (upheld.keeps_applyModuleEventIngress event s.records))
    fun result => ?_
  refine Keeps.bind (keeps_deferUnclaimed upheld event result) fun _ => ?_
  refine Keeps.bind (Keeps.optionForM fun _ =>
    Keeps.modify (trackNewlyTerminalRecord_evolves upheld _ _ _)) fun _ => ?_
  refine Keeps.get_bind fun s => ?_
  exact .bind (keeps_sweepTerminalHistory upheld _ _ s) fun _ t _ => Keeps.pure _ t

theorem keeps_transition (hall : allowed op change) :
    Keeps (StateEvolves A new) (transition readings op change) := by
  refine Keeps.bind (Keeps.ofExcept _) fun _ => ?_
  refine Keeps.bind (keeps_sweepTerminalHistory upheld _ _) fun _ => ?_
  refine Keeps.get_bind fun s => ?_
  have ha : KeepsAt (StateEvolves A new) s
      (onRecords (applyRuntimeOperationTransition readings.clock op change)) :=
    keepsAt_onRecords (upheld.keeps_applyRuntimeOperationTransition hall s.records)
  split
  · exact ha
  · next r hf =>
    have hm : r ∈ s.records := (find?_eq_some.1 hf).1
    refine .bind (Keeps.ofExcept _ s) fun _ t ht => ?_
    obtain ⟨-, rfl⟩ := ofExcept_eq_ok.1 ht
    refine .bind (.onError ?_ ?_) fun disposition t _ => ?_
    · refine .bind ha fun _ t _ => ?_
      exact .bind (Keeps.optionForM
          (fun moduleName => keeps_replayPendingModuleEvents upheld moduleName op) t)
        fun _ t _ => Keeps.pure _ t
    · intro _ hfail
      split
      · exact hfail
      · exact Evolves.restore hfail hm
    · refine .bind (Keeps.modify (trackNewlyTerminalRecord_evolves upheld _ _ _) t) fun _ t _ => ?_
      exact .bind (keeps_sweepTerminalHistory upheld _ _ t) fun _ t _ => Keeps.pure _ t

theorem keeps_insert (hnew : new r) : Keeps (StateEvolves A new) (insert readings r) := by
  refine Keeps.bind (Keeps.ofExcept _) fun _ => ?_
  refine Keeps.bind (keeps_sweepTerminalHistory upheld _ _) fun _ => ?_
  refine Keeps.get_bind fun s => ?_
  refine .bind (Keeps.ofExcept _ s) fun _ t _ => ?_
  refine .bind (Keeps.ofExcept _ t) fun _ t _ => ?_
  refine .bind (Keeps.modify (fun s => ?_) t) fun _ t _ => ?_
  · exact (Evolves.insert_new hnew : Evolves A new s.records _)
  · exact .bind (Keeps.modify (trackNewlyTerminalRecord_evolves upheld _ _ _) t)
      fun _ t _ => keeps_sweepTerminalHistory upheld _ _ t

/-- **Every call** keeps the relation. -/
theorem keeps_perform (call : RegistryCall ext) (hc : call.Permitted allowed new) :
    Keeps (StateEvolves A new) (call.perform readings) := by
  cases call with
  | insert => exact keeps_insert upheld readings hc
  | transition =>
    exact Keeps.bind (keeps_transition upheld _ hc) fun _ => Keeps.pure _
  | ingestModuleEvent =>
    exact Keeps.bind (keeps_ingestModuleEventWithSettlement upheld _ _) fun _ =>
      Keeps.pure _
  | inspect => exact Keeps.bind (keeps_inspect upheld _) fun _ => Keeps.pure _
  | remove op => exact keeps_removeRecord op

end

/-- **Every run** keeps the relation. -/
theorem run_evolves (s : RegistryState ext) (calls : List (Readings ext × RegistryCall ext))
    (hcall : ∀ call ∈ calls, call.2.Permitted allowed new) :
    StateEvolves A new s (s.run calls) := by
  induction calls generalizing s with
  | nil => exact Std.Refl.refl s
  | cons call _ ih =>
    refine IsTrans.trans _ _ _
      (keeps_perform upheld call.1 call.2 (hcall call mem_cons_self) s) (ih _ ?_)
    exact fun other ho => hcall other (mem_cons_of_mem call ho)

end Calls

end Evolution

end LogosInspector.Operations
