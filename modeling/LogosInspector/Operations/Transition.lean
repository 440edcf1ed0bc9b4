import LogosInspector.Mutation
import LogosInspector.Table
import LogosInspector.Operations.Record

/-!
# The transitions of an operation

An operation changes by transitions – it starts, makes progress, is resolved, canceled, timed out
– and by the events of the module that has accepted it. Both are embedded here as mutations of its
record, in the order in which the source writes the fields, so that what a failure leaves is what
the source would leave; `applyRecordMutation` is what puts the record back.
-/

namespace LogosInspector.Operations

/-- How the execution of an operation has ended. -/
inductive RuntimeOperationOutcome
  /-- With a result. -/
  | completed (result : Json)
  /-- A module will report the result. -/
  | accepted (acceptance : ObservableOperationAcceptance)
  /-- Nobody will report a result. -/
  | dispatched (acknowledgement : Json)

inductive RuntimeOperationTransition
  | started
  | progress (bytesWritten : ℕ) (contentLength : Option ℕ)
  | resolved (outcome : RuntimeOperationOutcome)
  | executionFailed (error : Text)
  | cancelRequested
  | cancellationConfirmed (error : Option Text)
  | cancellationUnconfirmed (error : Text)
  | cleanupUnconfirmed (error : Text)
  | timedOut (error : Text)
  | shutdown (error : Text)
  | cleanupFailed (error : Text)
  | taskPanicked (error : Text)
  | taskAborted (error : Text)
  | adapterClosed (error : Text)

inductive TransitionDisposition
  /-- The record has changed. -/
  | applied
  /-- Only an event was added. -/
  | evidenceOnly
  /-- The operation was over. -/
  | stale
  /-- Another operation has the same correlation. -/
  | duplicateCorrelation
  deriving DecidableEq

/-- Why an acceptance cannot be used. -/
inductive AcceptedCorrelationProblem
  /-- It lacks the id that its contract needs. -/
  | missing
  /-- Another operation has that id. -/
  | duplicate
  deriving DecidableEq

/-- What the progress is when an operation is over. -/
inductive TerminalProgress
  /-- What it was. -/
  | preserve
  /-- All. -/
  | complete

/-- What became of a module event. -/
inductive ModuleEventIngressResult
  | applied (operationId : Text)
  | stale (operationId : Text)
  | deferred (operationIds : List Text)
  | unknown
  | uncorrelated (operationIds : List Text)
  | ambiguous (operationIds : List Text)
  deriving DecidableEq

/-- The one operation that a module event was for. -/
def ModuleEventIngressResult.operationId : ModuleEventIngressResult → Option Text
  | .applied operationId | .stale operationId => some operationId
  | .deferred [operationId] => some operationId
  | _ => none

def staleTransitionMessage : RuntimeOperationTransition → String
  | .started => "start arrived after terminal state"
  | .progress .. => "progress arrived after terminal state"
  | .resolved _ => "execution result arrived after terminal state"
  | .executionFailed _ => "execution failure arrived after terminal state"
  | .cancelRequested => "cancel request arrived after terminal state"
  | .cancellationConfirmed _ => "cancellation confirmation arrived after terminal state"
  | .cancellationUnconfirmed _ => "unconfirmed cancellation arrived after terminal state"
  | .cleanupUnconfirmed _ => "unconfirmed cleanup arrived after terminal state"
  | .timedOut _ => "timeout arrived after terminal state"
  | .shutdown _ => "shutdown arrived after terminal state"
  | .cleanupFailed _ => "cleanup failure arrived after terminal state"
  | .taskPanicked _ => "task panic arrived after terminal state"
  | .taskAborted _ => "task abort arrived after terminal state"
  | .adapterClosed _ => "adapter close arrived after terminal state"

section Transition

variable {ext : OperationExternals}

/-- The records of the operations, by their ids. -/
abbrev Records (ext : OperationExternals) :=
  Table (fun record : RuntimeOperationRecord ext => record.operation.operationId)

/-- Change a record of the table, which is the one of its id. -/
def mutateRecord {α : Type} (record : RuntimeOperationRecord ext)
    (apply : Mutation (RuntimeOperationRecord ext) α) : Mutation (Records ext) α := fun records =>
  match apply record with
  | .ok answer record => .ok answer (records.insert record)
  | .error error record => .error error (records.insert record)

/-- Put the record back if changing it fails. -/
def applyRecordMutation {α : Type} (apply : Mutation (RuntimeOperationRecord ext) α) :
    Mutation (RuntimeOperationRecord ext) α := Mutation.restoring apply

/-- `push_runtime_operation_event_locked` -/
def push (clock : WallClock ext) (phase : EventPhase) (message : String)
    (progress : Option ext.F64) (result : Option Json) (error : Option Text) :
    Mutation (RuntimeOperationRecord ext) Unit :=
  Mutation.attempt fun record => pushEvent clock record phase message progress result error

def operationProgress (bytesWritten : ℕ) (contentLength : Option ℕ) : Option ext.F64 :=
  match contentLength with
  | some total => if 0 < total then some (ext.ratio bytesWritten total) else none
  | none => none

def monotonicProgress (previous candidate : Option ext.F64) : Option ext.F64 :=
  match previous, candidate with
  | some previous, some candidate => some (ext.max previous candidate)
  | some previous, none => some previous
  | none, candidate => candidate

/-- A length that is learned again does not shrink. -/
def maxContentLength (current contentLength : Option ℕ) : Option ℕ :=
  match contentLength with
  | none => current
  | some contentLength => some ((current.map (max · contentLength)).getD contentLength)

/-- Change the operation of a record. -/
def modifyOperation (f : RuntimeOperation ext → RuntimeOperation ext) :
    Mutation (RuntimeOperationRecord ext) Unit :=
  modify fun record => { record with operation := f record.operation }

/-! ### The end of an operation -/

/-- The record of an operation that is over. -/
def RuntimeOperationRecord.terminated (record : RuntimeOperationRecord ext)
    (status : OperationStatus) (result : Option Json) (error : Option Text)
    (reason : TerminalReason) : RuntimeOperationRecord ext :=
  { record with
    operation :=
      { record.operation with
        status
        result
        error := (boundedTerminalOperationError error).1
        terminalReason := some reason }
    errorRedactedBytes := (boundedTerminalOperationError error).2
    restartRequest := none
    pendingModuleName := none }

def terminalize (clock : WallClock ext) (status : OperationStatus) (result : Option Json)
    (error : Option Text) (reason : TerminalReason) (phase : EventPhase) (message : String)
    (terminalProgress : TerminalProgress) : Mutation (RuntimeOperationRecord ext) Unit := do
  let record ← get
  let progress := match terminalProgress with
    | .preserve => record.operation.progress
    | .complete => some ext.one
  set (record.terminated status result error reason)
  push clock phase message progress none none

/-! ### Correlations -/

def operationCorrelationValue (operation : RuntimeOperation ext) :
    ModuleEventCorrelationKind → Option Text
  | .session => operation.moduleSessionId
  | .request => operation.moduleRequestId

/-- Whether another operation has an id that a contract gives a meaning. -/
def acceptedCorrelationProblem (records : Records ext) (operationId : Text)
    (correlation : ModuleCorrelation) (terminalEvent : ModuleTerminalEventContract) :
    Option AcceptedCorrelationProblem :=
  match correlation.identityFor terminalEvent.correlation with
  | none => some .missing
  | some identity =>
    if records.records.any fun candidate =>
        candidate.operation.operationId ≠ operationId &&
          candidate.operation.terminalEvent.any fun contract =>
            contract.module = terminalEvent.module &&
              contract.correlation = terminalEvent.correlation &&
              operationCorrelationValue candidate.operation contract.correlation = some identity
    then some .duplicate
    else none

/-! ### Module events -/

/-- What an event says about the bytes that were transferred: how many more there are, or how
many there are in all. -/
def applyModuleEventProgress (event : ModuleEventEnvelope) (accumulate : Bool)
    (operation : RuntimeOperation ext) : RuntimeOperation ext :=
  let bytesWritten := match event.progress.1 with
    | none => operation.bytesWritten
    | some bytes =>
      if accumulate then min (operation.bytesWritten + bytes) (2 ^ 64 - 1)
      else max operation.bytesWritten bytes
  let contentLength := maxContentLength operation.contentLength event.progress.2
  { operation with
    bytesWritten
    contentLength
    progress :=
      monotonicProgress operation.progress (operationProgress bytesWritten contentLength) }

def applyCorrelatedModuleEvent (clock : WallClock ext) (event : ModuleEventEnvelope) :
    Mutation (RuntimeOperationRecord ext) Unit := do
  let record ← get
  match record.operation.terminalEvent with
  | none => throw "correlated operation has no terminal event contract"
  | some contract =>
    let result := event.result ext
    if contract.progressEvent = some event.eventName then
      modifyOperation (applyModuleEventProgress event true)
      let record ← get
      push clock .externalProgress "correlated module progress" record.operation.progress
        (some result) event.error
    else
      modifyOperation (applyModuleEventProgress event false)
      if event.failed contract then
        let error := event.error.getD ("module event \x60".toList ++ event.eventName ++
          "\x60 reported failure".toList)
        terminalize clock .failed none (some error) .externalFailure .failed
          "correlated module event failed" .preserve
      else
        terminalize clock .completed (some result) none .externalCompletion .completed
          "correlated module event completed operation" .complete

/-- Apply an event that had arrived before the operation was resolved. Whether it was for this
operation is returned. -/
def applyDeferredModuleEvent (clock : WallClock ext) (event : ModuleEventEnvelope) :
    Mutation (RuntimeOperationRecord ext) Bool :=
  applyRecordMutation do
    let record ← get
    match record.operation.terminalEvent with
    | none =>
      push clock .deferredModuleEventIgnored
        "deferred module event has no observable completion contract" none
        (some (event.result ext)) event.error
      pure false
    | some contract =>
      let expected := operationCorrelationValue record.operation contract.correlation
      let actual := event.correlationValue contract.correlation
      if contract.recognizes event = false ∨ expected ≠ actual then
        push clock .deferredModuleEventUncorrelated
          "deferred module event did not match registered correlation" none
          (some (event.result ext)) event.error
        pure false
      else if record.operation.status.isTerminal then
        push clock .staleModuleEvent "deferred module event arrived after terminal state" none
          (some (event.result ext)) event.error
        pure true
      else
        applyCorrelatedModuleEvent clock event
        pure true

/-- Whether an operation has a contract that is about an event. -/
def recognizesEvent (event : ModuleEventEnvelope) (operation : RuntimeOperation ext) : Bool :=
  operation.terminalEvent.any fun contract => contract.recognizes event

/-- Whether an event carries the id that an operation waits for. -/
def correlatesEvent (event : ModuleEventEnvelope) (operation : RuntimeOperation ext) : Bool :=
  operation.terminalEvent.any fun contract =>
    contract.recognizes event &&
      match operationCorrelationValue operation contract.correlation,
        event.correlationValue contract.correlation with
      | some expected, some actual => expected = actual
      | _, _ => false

/-- **Apply a module event** to the operation that it is for, if there is exactly one. -/
def applyModuleEventIngress (clock : WallClock ext) (event : ModuleEventEnvelope) :
    Mutation (Records ext) ModuleEventIngressResult := do
  let records ← get
  let recognized := records.records.filter (recognizesEvent event ·.operation)
  match records.records.filter (correlatesEvent event ·.operation) with
  | [] =>
    if recognized = [] then pure .unknown
    else pure (.uncorrelated (recognized.map (·.operation.operationId)))
  | [record] =>
    if record.operation.status.isTerminal then
      mutateRecord record (push clock .staleModuleEvent "module event arrived after terminal state"
        none (some (event.result ext)) event.error)
      pure (.stale record.operation.operationId)
    else
      mutateRecord record (applyRecordMutation (applyCorrelatedModuleEvent clock event))
      pure (.applied record.operation.operationId)
  | correlated => pure (.ambiguous (correlated.map (·.operation.operationId)))

/-! ### Transitions -/

def applyCancelRequested (clock : WallClock ext) :
    Mutation (RuntimeOperationRecord ext) TransitionDisposition := do
  let record ← get
  if record.operation.cancellable = false then
    push clock .cancelIgnored "operation is not cancellable" none none none
    pure .evidenceOnly
  else if record.operation.status = .canceling then
    push clock .cancelDuplicate "operation cancellation was already requested" none none none
    pure .evidenceOnly
  else
    modifyOperation fun operation => { operation with status := .canceling }
    push clock .canceling "cancel requested" none none none
    pure .applied

/-- The record of an operation that a module has accepted. -/
def RuntimeOperationRecord.accepted (record : RuntimeOperationRecord ext)
    (acceptance : ObservableOperationAcceptance) : RuntimeOperationRecord ext :=
  { record with
    pendingModuleName := none
    operation :=
      { record.operation with
        bridgeCallbackId := acceptance.correlation.bridgeCallbackId
        moduleSessionId := acceptance.correlation.sessionId
        moduleRequestId := acceptance.correlation.requestId
        terminalEvent := some acceptance.terminalEvent
        acknowledgement := some acceptance.acknowledgement
        result := none
        error := none
        terminalReason := none
        status :=
          if record.operation.status = .canceling then .canceling else .awaitingExternal } }

def applyOutcome (clock : WallClock ext) (outcome : RuntimeOperationOutcome) :
    Mutation (RuntimeOperationRecord ext) TransitionDisposition := do
  modify fun record => { record with pendingModuleName := none }
  match outcome with
  | .completed result =>
    terminalize clock .completed (some result) none .completed .completed "operation completed"
      .complete
  | .accepted acceptance =>
    modify fun record => record.accepted acceptance
    let record ← get
    push clock .accepted "operation accepted; awaiting correlated module event"
      record.operation.progress none none
  | .dispatched acknowledgement =>
    modifyOperation fun operation => { operation with acknowledgement := some acknowledgement }
    terminalize clock .dispatched none none .completionUnobservable .dispatched
      "operation dispatched without observable completion" .preserve
  pure .applied

/-- Turn down an acceptance. -/
def rejectAcceptance (clock : WallClock ext) (transition : RuntimeOperationTransition)
    (problem : AcceptedCorrelationProblem) :
    Mutation (RuntimeOperationRecord ext) TransitionDisposition := do
  let acknowledgement := match transition with
    | .resolved (.accepted acceptance) => acceptance.acknowledgement
    | _ => .null
  modify fun record =>
    { record with
      operation := { record.operation with acknowledgement := some acknowledgement }
      pendingModuleName := none }
  let (error, disposition) := match problem with
    | .missing =>
      ("accepted operation has no correlation required by its terminal event contract",
        TransitionDisposition.applied)
    | .duplicate =>
      ("accepted operation reused an external correlation",
        TransitionDisposition.duplicateCorrelation)
  terminalize clock .failed none (some error.toList) .invalidExternalCorrelation .failed
    "operation correlation rejected" .preserve
  pure disposition

/-- A transition that ends the operation with an error. -/
def applyFailure (clock : WallClock ext) (status : OperationStatus) (error : Text)
    (reason : TerminalReason) (phase : EventPhase) (message : String) :
    Mutation (RuntimeOperationRecord ext) TransitionDisposition := do
  terminalize clock status none (some error) reason phase message .preserve
  pure .applied

/-- A transition of an operation that is not over. -/
def applyTransition (clock : WallClock ext) :
    RuntimeOperationTransition → Mutation (RuntimeOperationRecord ext) TransitionDisposition
  | .started => do
    push clock .started "operation started" (some ext.zero) none none
    pure .applied
  | .progress bytesWritten contentLength => do
    modifyOperation fun operation =>
      { operation with
        bytesWritten := max operation.bytesWritten bytesWritten
        contentLength := maxContentLength operation.contentLength contentLength }
    let record ← get
    push clock .progress "operation progress" (monotonicProgress record.operation.progress
        (operationProgress record.operation.bytesWritten record.operation.contentLength)) none none
    pure .applied
  | .resolved outcome => applyOutcome clock outcome
  | .executionFailed error => do
    modify fun record => { record with pendingModuleName := none }
    applyFailure clock .failed error .executionFailed .failed "operation failed"
  | .cancelRequested => applyCancelRequested clock
  | .cancellationConfirmed error =>
    applyFailure clock .canceled (error.getD "runtime operation canceled".toList) .canceled
      .canceled "operation cancellation confirmed"
  | .cancellationUnconfirmed error => do
    let record ← get
    let disposition ←
      if record.operation.status = .canceling then pure .evidenceOnly
      else applyCancelRequested clock
    let record ← get
    push clock .cancellationUnconfirmed "adapter cleanup lacks remote termination evidence"
      record.operation.progress none (some error)
    pure disposition
  | .cleanupUnconfirmed error => do
    let record ← get
    let disposition :=
      if record.operation.status = .canceling then TransitionDisposition.evidenceOnly
      else .applied
    modifyOperation fun operation => { operation with status := .canceling }
    if record.operation.error.isNone then
      let (retained, redactedBytes) := boundedTerminalOperationError (some error)
      modify fun record =>
        { record with
          operation := { record.operation with error := retained }
          errorRedactedBytes := redactedBytes }
    push clock .cleanupUnconfirmed "adapter cleanup lacks remote termination evidence"
      record.operation.progress none (some error)
    pure disposition
  | .timedOut error =>
    applyFailure clock .timedOut error .timeout .timedOut "operation timed out"
  | .shutdown error =>
    applyFailure clock .failed error .shutdown .failed "operation stopped during shutdown"
  | .cleanupFailed error =>
    applyFailure clock .failed error .cleanupFailed .failed "operation cleanup failed"
  | .taskPanicked error =>
    applyFailure clock .failed error .taskPanicked .failed "operation task panicked"
  | .taskAborted error =>
    applyFailure clock .failed error .taskAborted .failed "operation task was aborted"
  | .adapterClosed error =>
    applyFailure clock .failed error .adapterClosed .failed "operation adapter closed"

/-- **Apply a transition** to the operation of an id. -/
def applyRuntimeOperationTransition (clock : WallClock ext) (operationId : Text)
    (transition : RuntimeOperationTransition) :
    Mutation (Records ext) TransitionDisposition := do
  let records ← get
  match records.find? operationId with
  | none => pure .evidenceOnly
  | some record =>
    if record.operation.status.isTerminal then
      mutateRecord record
        (push clock .staleTransition (staleTransitionMessage transition) none none none)
      pure .stale
    else
      let acceptanceProblem := match transition with
        | .resolved (.accepted acceptance) =>
          acceptedCorrelationProblem records operationId acceptance.correlation
            acceptance.terminalEvent
        | _ => none
      match acceptanceProblem with
      | some problem =>
        mutateRecord record (applyRecordMutation (rejectAcceptance clock transition problem))
      | none => mutateRecord record (applyRecordMutation (applyTransition clock transition))

end Transition

end LogosInspector.Operations
