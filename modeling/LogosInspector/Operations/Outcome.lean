import LogosInspector.Operations.Terminal

/-!
# The outcome of an operation

What an operation has to say about its end is its `Outcome`, and a module event changes that by a
function `Outcome.event` which knows nothing of journals. Applying an event to a record and
replaying one are shown to change the outcome by that function.
-/

namespace LogosInspector.Operations

open Mutation

section Outcome

variable {ext : OperationExternals}

/-! ### Outcomes -/

/-- What an operation has to say about its end. -/
structure Outcome where
  status : OperationStatus
  result : Option Json
  error : Option Text
  terminalReason : Option TerminalReason
  bytesWritten : ℕ
  contentLength : Option ℕ

def RuntimeOperation.outcome (operation : RuntimeOperation ext) : Outcome :=
  { status := operation.status
    result := operation.result
    error := operation.error
    terminalReason := operation.terminalReason
    bytesWritten := operation.bytesWritten
    contentLength := operation.contentLength }

/-- The outcome of an operation that a module has accepted. -/
def Outcome.accepted (outcome : Outcome) : Outcome :=
  { outcome with
    status := if outcome.status = .canceling then .canceling else .awaitingExternal
    result := none
    error := none
    terminalReason := none }

/-- What an event says about the bytes that were transferred. -/
def Outcome.transferred (outcome : Outcome) (event : ModuleEventEnvelope) (accumulate : Bool) :
    Outcome :=
  { outcome with
    bytesWritten := match event.progress.1 with
      | none => outcome.bytesWritten
      | some bytes =>
        if accumulate then min (outcome.bytesWritten + bytes) (2 ^ 64 - 1)
        else max outcome.bytesWritten bytes
    contentLength := maxContentLength outcome.contentLength event.progress.2 }

/-- **What an event does to an outcome**: nothing if the operation is over. -/
def Outcome.event (ext : OperationExternals) (contract : ModuleTerminalEventContract)
    (outcome : Outcome) (event : ModuleEventEnvelope) : Outcome :=
  if outcome.status.isTerminal then outcome
  else if contract.progressEvent = some event.eventName then outcome.transferred event true
  else if event.failed contract then
    { outcome.transferred event false with
      status := .failed
      result := none
      error := (boundedTerminalOperationError (some (event.error.getD
        ("module event \x60".toList ++ event.eventName ++ "\x60 reported failure".toList)))).1
      terminalReason := some .externalFailure }
  else
    { outcome.transferred event false with
      status := .completed
      result := some (event.result ext)
      error := none
      terminalReason := some .externalCompletion }

/-- An outcome apart from a purge of the result. -/
structure Shows (record : RuntimeOperationRecord ext) (outcome : Outcome) : Prop where
  status : record.operation.status = outcome.status
  error : record.operation.error = outcome.error
  terminalReason : record.operation.terminalReason = outcome.terminalReason
  bytesWritten : record.operation.bytesWritten = outcome.bytesWritten
  contentLength : record.operation.contentLength = outcome.contentLength
  result : PurgedOr outcome.result record.operation.result record.resultPurged

theorem shows_outcome (r : RuntimeOperationRecord ext) : Shows r r.operation.outcome :=
  ⟨rfl, rfl, rfl, rfl, rfl, .inl rfl⟩

theorem Shows.frozen {r r' : RuntimeOperationRecord ext} {outcome : Outcome}
    (h : Shows r outcome) (hf : Frozen r r') : Shows r' outcome where
  status := hf.status.trans h.status
  error := hf.error.trans h.error
  terminalReason := hf.terminalReason.trans h.terminalReason
  bytesWritten := hf.bytesWritten.trans h.bytesWritten
  contentLength := hf.contentLength.trans h.contentLength
  result := h.result.trans hf.result hf.resultPurged

/-! ### What the changes of a record do to its outcome -/

section Records

variable {clock : WallClock ext} {r r' : RuntimeOperationRecord ext}

theorem outcome_of_essence (h : r'.essence = r.essence) :
    r'.operation.outcome = r.operation.outcome :=
  congrArg (·.operation.outcome) h

/-- An operation, its contract and the ids that it waits for. -/
structure SameContract (record record' : RuntimeOperationRecord ext) : Prop where
  operationId : record'.operation.operationId = record.operation.operationId
  terminalEvent : record'.operation.terminalEvent = record.operation.terminalEvent
  moduleSessionId : record'.operation.moduleSessionId = record.operation.moduleSessionId
  moduleRequestId : record'.operation.moduleRequestId = record.operation.moduleRequestId

theorem SameContract.correlationValue (h : SameContract r r') (kind : ModuleEventCorrelationKind) :
    operationCorrelationValue r'.operation kind = operationCorrelationValue r.operation kind := by
  cases kind
  · exact h.moduleSessionId
  · exact h.moduleRequestId

theorem SameContract.correlates (h : SameContract r r') (event : ModuleEventEnvelope) :
    correlatesEvent event r'.operation = correlatesEvent event r.operation := by
  simp only [correlatesEvent, h.terminalEvent, h.correlationValue]

variable {event : ModuleEventEnvelope} {contract : ModuleTerminalEventContract}

/-- **Applying an event** changes the outcome as it should. -/
theorem applyCorrelatedModuleEvent_outcome {u : Unit}
    (h : applyCorrelatedModuleEvent clock event r = .ok u r')
    (hc : r.operation.terminalEvent = some contract)
    (hrun : r.operation.status.isTerminal = false) :
    r'.operation.outcome = r.operation.outcome.event ext contract event := by
  have hs : r.operation.outcome.status.isTerminal = false := hrun
  obtain ⟨_, hcon, h⟩ := applyCorrelatedModuleEvent_eq_ok h
  cases hc.symm.trans hcon
  unfold Outcome.event
  rw [if_neg (by simp [hs])]
  split_ifs at h ⊢
  · obtain ⟨_, _, _, _, h⟩ := h
    exact outcome_of_essence (pushEvent_essence h)
  all_goals
    obtain ⟨_, h⟩ := h
    exact outcome_of_essence (terminalize_essence h)

/-- An operation that waits for the events of a contract that carry an id. -/
structure Waits (contract : ModuleTerminalEventContract) (identity : Text)
    (record : RuntimeOperationRecord ext) : Prop where
  terminalEvent : record.operation.terminalEvent = some contract
  identity : operationCorrelationValue record.operation contract.correlation = some identity

variable {identity : Text}

theorem Waits.same (h : Waits contract identity r) (hs : SameContract r r') :
    Waits contract identity r' :=
  ⟨hs.terminalEvent.trans h.terminalEvent, (hs.correlationValue _).trans h.identity⟩

/-- An event of a contract that carries an id. -/
def Matches (contract : ModuleTerminalEventContract) (identity : Text)
    (event : ModuleEventEnvelope) : Prop :=
  contract.recognizes event = true ∧ event.correlationValue contract.correlation = some identity

instance (contract : ModuleTerminalEventContract) (identity : Text) (event : ModuleEventEnvelope) :
    Decidable (Matches contract identity event) :=
  inferInstanceAs (Decidable (_ ∧ _))

/-- What a deferred event does to an outcome: nothing if it was for another operation. -/
def Outcome.deferred (ext : OperationExternals) (contract : ModuleTerminalEventContract)
    (identity : Text) (outcome : Outcome) (event : ModuleEventEnvelope) : Outcome :=
  if Matches contract identity event then outcome.event ext contract event else outcome

theorem Outcome.deferred_of_matches (h : Matches contract identity event) (outcome : Outcome) :
    outcome.deferred ext contract identity event = outcome.event ext contract event :=
  if_pos h

/-- **Replaying a deferred event** changes the outcome as its late arrival would. -/
theorem applyDeferredModuleEvent_outcome {a : Bool}
    (h : applyDeferredModuleEvent clock event r = .ok a r')
    (hwait : Waits contract identity r) :
    r'.operation.outcome = r.operation.outcome.deferred ext contract identity event := by
  replace h := restoring_eq_ok.1 h
  simp only [get_bind] at h
  rw [hwait.terminalEvent] at h
  simp only [hwait.identity] at h
  unfold Outcome.deferred
  split_ifs at h with hu ht
  · simp only [bind_ok_iff, pure_ok_iff, push_eq_ok] at h
    obtain ⟨_, _, h, -, rfl⟩ := h
    rw [if_neg]
    · exact outcome_of_essence (pushEvent_essence h)
    · rintro ⟨hrec, hval⟩
      rcases hu with hno | hno
      · simp [hrec] at hno
      · exact hno hval.symm
  all_goals
    have hm : Matches contract identity event := by
      simp only [not_or, Bool.not_eq_false, not_not] at hu
      exact ⟨hu.1, hu.2.symm⟩
    simp only [bind_ok_iff, pure_ok_iff] at h
    obtain ⟨_, _, h, -, rfl⟩ := h
    rw [if_pos hm]
  · have hover : r.operation.outcome.event ext contract event = r.operation.outcome :=
      if_pos ht
    exact (outcome_of_essence (pushEvent_essence (push_eq_ok.1 h))).trans hover.symm
  · exact applyCorrelatedModuleEvent_outcome h hwait.terminalEvent (by simpa using ht)

/-- What is replayed to an operation: the events that it is a candidate of. -/
def eventsFor (operationId : Text) (events : List PendingModuleEvent) : List ModuleEventEnvelope :=
  (events.filter (operationId ∈ ·.candidateOperationIds)).map (·.event)

theorem Waits.correlates (h : Waits contract identity r)
    (hevent : Matches contract identity event) : correlatesEvent event r.operation = true := by
  simp [correlatesEvent, h.terminalEvent, h.identity, hevent.1, hevent.2]

theorem acceptedCorrelationProblem_eq_none {records : Records ext} {op : Text}
    {acc : ObservableOperationAcceptance}
    (h : acceptedCorrelationProblem records op acc.correlation acc.terminalEvent = none) :
    ∃ identity, acc.correlation.identityFor acc.terminalEvent.correlation = some identity ∧
      ∀ r ∈ records, r.operation.operationId ≠ op →
        ∀ other, r.operation.terminalEvent = some other → other.module = acc.terminalEvent.module →
          other.correlation = acc.terminalEvent.correlation →
          operationCorrelationValue r.operation other.correlation ≠ some identity := by
  unfold acceptedCorrelationProblem at h
  split at h
  · cases h
  · next identity hident =>
    refine ⟨identity, hident, fun r hm hne _ ho hmod hk hval => ?_⟩
    rw [hk] at hval
    rw [if_pos] at h
    · cases h
    · refine List.any_eq_true.2 ⟨r, hm, ?_⟩
      simp [hne, ho, hmod, hval, hk]

theorem recognizes_moduleName (h : contract.recognizes event = true) :
    contract.module = event.moduleName := by
  simp only [ModuleTerminalEventContract.recognizes, Bool.and_eq_true, decide_eq_true_eq] at h
  exact h.1

end Records

end Outcome

end LogosInspector.Operations
