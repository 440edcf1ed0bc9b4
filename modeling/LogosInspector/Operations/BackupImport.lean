import LogosInspector.Operations.Definition
import LogosInspector.Operations.Supervisor

/-!
# The coordinator of backup imports

An import of a backup writes settings that operations read. So an operation and an import that
affects it exclude each other: starting an operation takes the lock of a *gate* and keeps it until
the operation is admitted, and an import makes the gate `active` before it looks for operations that
are running. Those it finds make it give up (`block`), or are canceled (`stop`) and started again
when it is done.

The embedding is a state with the operations, the gate and all calls of `apply`, each with the point
that it has reached. What a call has to its end is its own list of operations to be started again
(`StoppedOperationGuard`) and its claim on the gate (`ImportLease`), which are both dropped when the
call is left, in this order.
-/

namespace LogosInspector.Operations

open SettingsBackup

/-! ### What an import affects -/

/-- What is known of the requests: the method of each, and the definition of a method. -/
structure OperationCatalogue (ext : OperationExternals) where
  method : ext.Request → OperationMethod
  definition : OperationMethod → OperationDefinition

namespace OperationCatalogue

variable {ext : OperationExternals} (catalogue : OperationCatalogue ext)

def requestMethod (request : RuntimeOperationRequest ext) : OperationMethod :=
  catalogue.method request.body

/-- The definition of a request. -/
def requestDefinition (request : RuntimeOperationRequest ext) : OperationDefinition :=
  catalogue.definition (catalogue.requestMethod request)

/-- Whether a request can be canceled is what its definition says. -/
def Defines (request : RuntimeOperationRequest ext) : Prop :=
  request.cancellable = (catalogue.requestDefinition request).cancellable

instance (request : RuntimeOperationRequest ext) : Decidable (catalogue.Defines request) := by
  unfold Defines
  infer_instance

end OperationCatalogue

def selectionAffects (selection : BackupImportSelection) (method : OperationMethod) : Bool :=
  selection.affectedAreas.any fun
    | .settings => true
    | .favorites => false
    | .idlRegistry => method = .localWalletInstructionSubmit
    | .walletProfile => method = .localWalletCreateAccount ∨ method = .localWalletSendTransaction ∨
      method = .localWalletInstructionSubmit ∨ method = .localWalletCommand ∨
      method = .localWalletDeployProgram ∨ method = .localWalletSyncPrivate ∨
      method = .localWalletAccounts

/-! ### The gate -/

inductive ImportGate
  | idle
  | closing
  | active (selection : BackupImportSelection) (cancellationRequested closing : Bool)
  | recoveryRequired (selection : BackupImportSelection) (transactionId : Option Text)
      (closing : Bool)

namespace ImportGate

def selection : ImportGate → Option BackupImportSelection
  | .idle | .closing => none
  | .active selection _ _ | .recoveryRequired selection _ _ => some selection

/-- `matches!(gate, ImportGate::Closing)` -/
def isClosed : ImportGate → Bool
  | .closing => true
  | .idle | .active .. | .recoveryRequired .. => false

/-- Ask what is there to close. -/
def beginClose : ImportGate → ImportGate
  | .idle | .closing => .closing
  | .active selection _ _ => .active selection true true
  | .recoveryRequired selection transactionId _ => .recoveryRequired selection transactionId true

end ImportGate

/-! ### One import -/

inductive DecisionAction
  | stop
  | block
  deriving DecidableEq

structure OperationDecision (ext : OperationExternals) where
  operationId : Text
  action : DecisionAction
  request : Option (RuntimeOperationRequest ext)
  restartEligible : Bool

inductive BackupImportPhase
  | preparing
  | quiescing
  | committing
  | applied
  | rolledBack
  | recoveryRequired
  deriving DecidableEq

def BackupImportPhase.canTransitionTo : BackupImportPhase → BackupImportPhase → Bool
  | .preparing, .quiescing | .preparing, .rolledBack => true
  | .quiescing, .committing | .quiescing, .rolledBack | .quiescing, .recoveryRequired => true
  | .committing, .applied | .committing, .rolledBack | .committing, .recoveryRequired => true
  | _, _ => false

inductive BackupImportOutcome
  | applied
  | blocked
  | rolledBack
  | recoveryRequired
  deriving DecidableEq

/-- A call that starts an operation, with the id once there is one. -/
structure StartCall (ext : OperationExternals) where
  request : RuntimeOperationRequest ext
  operationId : Option Text

inductive LocalStateFailureStatus
  | rolledBack
  | recoveryRequired
  deriving DecidableEq

/-- What the store says of a restore. -/
inductive RestoreResult
  | receipt (backupCatalogId : Text) (selection : BackupImportSelection)
  /-- It has failed, with what is known of the transaction if it got so far. -/
  | failure (status : Option (LocalStateFailureStatus × Option Text))

/-- How far a call of `apply` has come. -/
inductive ImportStage (ext : OperationExternals)
  | allocating
  | previewing
  /-- The store has returned a preview. -/
  | planning (isObject : Bool)
  /-- Operations are being canceled, and each was canceled by this call or not. -/
  | requesting (decisions : List (OperationDecision ext))
      (requested : List (OperationDecision ext × Bool))
  /-- It waits for the operations. -/
  | waiting (requested awaiting : List (OperationDecision ext × Bool))
  /-- Some have not stopped in time, and it waits for these once more. -/
  | reconciling (awaiting : List (OperationDecision ext × Bool))
  /-- The store restores the backup. -/
  | restoring
  /-- Operations are started again. -/
  | restarting (decisions : List (OperationDecision ext)) (start : Option (StartCall ext))
      (outcome : Option BackupImportOutcome)
  /-- It is about to be left, with an outcome unless it has failed. -/
  | returning (outcome : Option BackupImportOutcome)
  | returned (outcome : Option BackupImportOutcome)

/-- A call of `apply` that has claimed the gate. -/
structure ImportCall (ext : OperationExternals) where
  key : ℕ
  backupCatalogId : Text
  /-- Empty until it is allocated. -/
  importId : Text
  selection : BackupImportSelection
  phase : BackupImportPhase
  stage : ImportStage ext
  /-- What is to be started again, and whether it is when the list is dropped. -/
  stopped : List (OperationDecision ext)
  restartOnDrop : Bool
  /-- Whether dropping the claim releases the gate, and what it becomes then. -/
  releaseOnDrop : Bool
  failClosedTransactionId : Option Text
  /-- Whether its claim on the gate has been released; whether the store was called; which
  operations the call has canceled; which it was about to start again; and the ids that those were
  given. -/
  released : Bool
  committed : Bool
  canceled : List (OperationDecision ext)
  restarted : List (OperationDecision ext)
  restarts : List Text

namespace ImportCall

variable {ext : OperationExternals}

def new (key : ℕ) (backupCatalogId : Text) (selection : BackupImportSelection) : ImportCall ext :=
  { key
    backupCatalogId
    importId := []
    selection
    phase := .preparing
    stage := .allocating
    stopped := []
    restartOnDrop := true
    releaseOnDrop := true
    failClosedTransactionId := none
    released := false
    committed := false
    canceled := []
    restarted := []
    restarts := [] }

/-- Leave the call with an error. -/
def fail (call : ImportCall ext) : ImportCall ext := { call with stage := .returning none }

/-- Go to the next phase. -/
def transition (call : ImportCall ext) (next : BackupImportPhase)
    (go : ImportCall ext → ImportCall ext) : ImportCall ext :=
  if call.phase.canTransitionTo next then go { call with phase := next } else call.fail

def leave (call : ImportCall ext) (outcome : BackupImportOutcome) : ImportCall ext :=
  { call with stage := .returning (some outcome) }

def record (call : ImportCall ext) (decision : OperationDecision ext) : ImportCall ext :=
  if decision.restartEligible then { call with stopped := call.stopped ++ [decision] } else call

/-- Start again what was stopped, and leave the call then. -/
def compensate (call : ImportCall ext) (outcome : BackupImportOutcome) : ImportCall ext :=
  { call with
    stage := .restarting call.stopped none (some outcome)
    stopped := []
    restartOnDrop := false }

def retainForRecovery (call : ImportCall ext) : ImportCall ext :=
  { call with stopped := [], restartOnDrop := false }

/-- All operations have stopped: call the store. -/
def commit (call : ImportCall ext) : ImportCall ext :=
  call.transition .committing fun call =>
    { call with
      stage := .restoring
      failClosedTransactionId := some ("coordinator:".toList ++ call.importId)
      restartOnDrop := false
      committed := true }

/-- What was waited for is over. -/
def recordTerminal (call : ImportCall ext) (decision : OperationDecision ext) (requested : Bool)
    (status : OperationStatus) : ImportCall ext :=
  if requested ∧ status = .canceled then
    { call with canceled := call.canceled ++ [decision] }.record decision
  else call

end ImportCall

/-! ### The decisions -/

variable {ext : OperationExternals}

def operationDecision (catalogue : OperationCatalogue ext) (record : RuntimeOperationRecord ext)
    (selection : BackupImportSelection) : Option (OperationDecision ext) := do
  let request ← record.restartRequest
  if selectionAffects selection (catalogue.requestMethod request) then
    let canStop := record.operation.status = .running && record.operation.cancellable &&
      (catalogue.requestDefinition request).safeToRestart
    some
      { operationId := record.operation.operationId
        action := if canStop then .stop else .block
        request := record.restartRequest
        restartEligible := canStop && (catalogue.requestDefinition request).safeToRestart }
  else none

/-- The operations that are running and affected, in the order of their ids, as the records are. -/
def operationDecisions (catalogue : OperationCatalogue ext) (records : Records ext)
    (selection : BackupImportSelection) : List (OperationDecision ext) :=
  (records.records.filter fun record => !record.operation.status.isTerminal).filterMap
    (operationDecision catalogue · selection)

/-! ### The system -/

structure ImportSystem (ext : OperationExternals) where
  operations : Supervisor ext
  gate : ImportGate
  /-- The call that starts an operation and has the lock of the gate. -/
  starting : Option (StartCall ext)
  nextImportSequence : ℕ
  nextKey : ℕ
  imports : Table (fun call : ImportCall ext => call.key)
  /-- Whether the coordinator was asked to close. -/
  closeRequested : Bool

namespace ImportSystem

def initial (ext : OperationExternals) : ImportSystem ext :=
  { operations := Supervisor.initial ext
    gate := .idle
    starting := none
    nextImportSequence := 1
    nextKey := 0
    imports := Table.empty
    closeRequested := false }

def onOperations {α : Type} : Mutation (Supervisor ext) α → Mutation (ImportSystem ext) α :=
  Mutation.zoom (·.operations) fun s operations => { s with operations }

def setCall (s : ImportSystem ext) (call : ImportCall ext) : ImportSystem ext :=
  { s with imports := s.imports.insert call }

/-- The gate can be looked at by anybody but while an operation is started. -/
def unlocked (s : ImportSystem ext) : Bool := s.starting.isNone

/-! ### Starting operations -/

/-- `operation_permit`: take the lock, unless the operation is affected. -/
def operationPermit (catalogue : OperationCatalogue ext) (request : RuntimeOperationRequest ext) :
    Mutation (ImportSystem ext) Unit := do
  let s ← get
  Mutation.enabled (s.unlocked = true ∧ catalogue.Defines request)
  if s.gate.isClosed then throw "backup import coordinator is closing"
  else if s.gate.selection.any (selectionAffects · (catalogue.requestMethod request)) then
    throw "operation is blocked while affected settings are being imported"
  else set { s with starting := some ⟨request, none⟩ }

/-- What is being started by a call that has the lock, or by an import. -/
def startOf (s : ImportSystem ext) : Option ℕ → Option (StartCall ext)
  | none => s.starting
  | some key =>
    match s.imports.find? key with
    | none => none
    | some call =>
      match call.stage with
      | .restarting _ start _ => start
      | _ => none

def setStart (s : ImportSystem ext) (start : Option (StartCall ext)) : Option ℕ → ImportSystem ext
  | none => { s with starting := start }
  | some key =>
    match s.imports.find? key with
    | none => s
    | some call =>
      match call.stage with
      | .restarting decisions _ outcome =>
        s.setCall { call with
          stage := .restarting decisions start outcome
          restarts := call.restarts ++ (start.bind (·.operationId)).toList }
      | _ => s

/-- The operation gets its id and its permit. -/
def prepare (who : Option ℕ) (operationId : Text) (disposableFile : Bool) :
    Mutation (ImportSystem ext) Unit := do
  let s ← get
  match s.startOf who with
  | some ⟨request, none⟩ => do
    onOperations (Supervisor.prepare operationId disposableFile)
    modify (·.setStart (some ⟨request, some operationId⟩) who)
  | _ => throw "not now"

/-- The operation gets its record. The request has been bound to its target by then. -/
def insertRecord (catalogue : OperationCatalogue ext) (who : Option ℕ) (readings : Readings ext)
    (bound : RuntimeOperationRequest ext) (now : ℕ) : Mutation (ImportSystem ext) Unit := do
  let s ← get
  match s.startOf who with
  | some ⟨request, some operationId⟩ => do
    Mutation.enabled (catalogue.requestMethod bound = catalogue.requestMethod request ∧
      catalogue.Defines bound)
    onOperations (Supervisor.insertRecord readings operationId bound now)
  | _ => throw "not now"

/-- The call returns, having started the operation or not. -/
def endStart (who : Option ℕ) : Mutation (ImportSystem ext) Unit := do
  let s ← get
  match s.startOf who with
  | none => throw "not now"
  | some start =>
    Mutation.enabled (∀ operationId, start.operationId = some operationId →
      s.operations.clients operationId = none)
    set (s.setStart none who)

/-! ### Imports -/

/-- Claim the gate. -/
def acquire (backupCatalogId : Text) (selection : BackupImportSelection) :
    Mutation (ImportSystem ext) Unit := do
  let s ← get
  Mutation.enabled (s.unlocked = true)
  match s.gate with
  | .idle =>
    set
      { s with
        gate := .active selection false false
        nextKey := s.nextKey + 1
        imports := s.imports.insert (.new s.nextKey backupCatalogId selection) }
  | .active .. => throw "another backup import is already active"
  | .closing => throw "backup import coordinator is closing"
  | .recoveryRequired .. =>
    throw "backup import mutation is blocked while a local transaction requires recovery"

/-- The call of `apply` with a key. -/
def callOf (key : ℕ) : Mutation (ImportSystem ext) (ImportCall ext) := do
  let s ← get
  Mutation.ofExcept (required (s.imports.find? key) "not now")

def allocateImportId (key : ℕ) : Mutation (ImportSystem ext) Unit := do
  let call ← callOf key
  match call.stage with
  | .allocating =>
    modify fun s =>
      if s.nextImportSequence + 1 < 2 ^ 64 then
        { s with nextImportSequence := s.nextImportSequence + 1 }.setCall
          { call with
            importId := "backup_import:".toList ++ (toString s.nextImportSequence).toList ++
              ":".toList ++ call.backupCatalogId
            stage := .previewing }
      else s.setCall call.fail
  | _ => throw "not now"

/-- The store returns a preview, or an error. -/
def preview (key : ℕ) (isObject : Option Bool) : Mutation (ImportSystem ext) Unit := do
  let call ← callOf key
  match call.stage with
  | .previewing =>
    modify (·.setCall <| match isObject with
      | none => call.transition .rolledBack (·.leave .rolledBack)
      | some isObject => { call with stage := .planning isObject })
  | _ => throw "not now"

/-- Look which operations are affected. -/
def plan (catalogue : OperationCatalogue ext) (readings : Readings ext) (key : ℕ) :
    Mutation (ImportSystem ext) Unit := do
  let call ← callOf key
  match call.stage with
  | .planning false => modify (·.setCall (call.transition .rolledBack (·.leave .rolledBack)))
  | .planning true =>
    Mutation.handle (onOperations (Supervisor.onRegistry (inspect readings)))
      (fun _ => modify (·.setCall (call.transition .rolledBack (·.leave .rolledBack))))
      fun records =>
        let decisions := operationDecisions catalogue records call.selection
        modify (·.setCall <| call.transition .quiescing fun call =>
          if decisions.any (·.action = .block) then
            call.transition .rolledBack (·.leave .blocked)
          else
            { call with stage := .requesting (decisions.filter (·.action = .stop)) [] })
  | _ => throw "not now"

/-- Leave a call after which somebody has to look at what it has left behind. -/
def requireRecovery (call : ImportCall ext) (transactionId : Option Text) :
    Mutation (ImportSystem ext) Unit := do
  let s ← get
  Mutation.enabled (s.unlocked = true)
  let call := call.retainForRecovery
  set <|
    if call.phase.canTransitionTo .recoveryRequired then
      let call := { call with phase := .recoveryRequired, releaseOnDrop := false }
      match s.gate with
      | .active selection _ closing =>
        { s with gate := .recoveryRequired selection transactionId closing }.setCall
          (call.leave .recoveryRequired)
      | _ => s.setCall call.fail
    else s.setCall call.fail

def quiesceTransactionId (call : ImportCall ext) : Option Text :=
  some ("coordinator:".toList ++ call.importId ++ ":quiesce".toList)

/-- Cancel the next operation. -/
def requestStop (readings : Readings ext) (key : ℕ) : Mutation (ImportSystem ext) Unit := do
  let call ← callOf key
  match call.stage with
  | .requesting [] requested =>
    modify (·.setCall { call with stage := .waiting requested [] })
  | .requesting (decision :: decisions) requested =>
    Mutation.handle (onOperations (Supervisor.onRegistry
        (Operations.transition readings decision.operationId .cancelRequested)))
      (fun _ => requireRecovery call (quiesceTransactionId call))
      fun disposition => modify fun s =>
        let requestedNow : Bool := disposition = TransitionDisposition.applied
        { s with
          operations :=
            if requestedNow then
              { s.operations with
                canceling := Insert.insert decision.operationId s.operations.canceling }
            else s.operations }.setCall
          { call with stage := .requesting decisions (requested ++ [(decision, requestedNow)]) }
  | _ => throw "not now"

/-- Look whether an operation has stopped. If it has not, `timedOut` says whether it is not waited
for any longer. -/
def waitUntilTerminal (readings : Readings ext) (call : ImportCall ext) (operationId : Text)
    (timedOut : Bool) (settled : OperationStatus → ImportCall ext)
    (late : Mutation (ImportSystem ext) Unit) : Mutation (ImportSystem ext) Unit :=
  Mutation.handle (onOperations (Supervisor.onRegistry (inspect readings)))
    (fun _ => requireRecovery call (quiesceTransactionId call))
    fun records =>
      match records.find? operationId with
      | none => requireRecovery call (quiesceTransactionId call)
      | some record =>
        if record.operation.status.isTerminal then
          modify (·.setCall (settled record.operation.status))
        else if timedOut then late
        else pure ()

/-- Wait for the next operation. -/
def poll (readings : Readings ext) (key : ℕ) (timedOut : Bool) :
    Mutation (ImportSystem ext) Unit := do
  let call ← callOf key
  match call.stage with
  | .waiting [] [] => modify (·.setCall call.commit)
  | .waiting [] awaiting => modify (·.setCall { call with stage := .reconciling awaiting })
  | .waiting ((decision, requested) :: rest) awaiting =>
    waitUntilTerminal readings call decision.operationId timedOut
      (fun status => { call.recordTerminal decision requested status with
        stage := .waiting rest awaiting })
      (modify (·.setCall
        { call with stage := .waiting rest (awaiting ++ [(decision, requested)]) }))
  | .reconciling [] =>
    modify (·.setCall (call.transition .rolledBack (·.compensate .blocked)))
  | .reconciling ((decision, requested) :: rest) =>
    waitUntilTerminal readings call decision.operationId timedOut
      (fun status => { call.recordTerminal decision requested status with
        stage := .reconciling rest })
      (requireRecovery call (quiesceTransactionId call))
  | _ => throw "not now"

/-- The store has restored the backup, or failed. -/
def restore (key : ℕ) (result : RestoreResult) : Mutation (ImportSystem ext) Unit := do
  let call ← callOf key
  match call.stage with
  | .restoring =>
    match result with
    | .receipt backupCatalogId selection =>
      if backupCatalogId = call.backupCatalogId ∧ selection = call.selection then
        modify (·.setCall (call.transition .applied (·.compensate .applied)))
      else requireRecovery call (some ("coordinator:".toList ++ call.importId))
    | .failure (some (.recoveryRequired, transactionId)) => requireRecovery call transactionId
    | .failure _ => modify (·.setCall (call.transition .rolledBack (·.compensate .rolledBack)))
  | _ => throw "not now"

/-- Start the next operation again. -/
def restart (key : ℕ) : Mutation (ImportSystem ext) Unit := do
  let call ← callOf key
  match call.stage with
  | .restarting (decision :: decisions) none outcome =>
    modify (·.setCall
      { call with
        stage := .restarting decisions (decision.request.map (⟨·, none⟩)) outcome
        restarted := call.restarted ++ (decision.request.map fun _ => decision).toList })
  | .restarting [] none outcome =>
    -- The value of the import is built, and the claim on the gate will be released.
    modify (·.setCall { call with stage := .returning outcome, failClosedTransactionId := none })
  | _ => throw "not now"

/-- The call panics. -/
def unwind (key : ℕ) : Mutation (ImportSystem ext) Unit := do
  let call ← callOf key
  match call.stage with
  | .returning _ | .returned _ | .restarting _ (some _) _ => throw "not now"
  | _ => modify (·.setCall call.fail)

/-- What becomes of the gate when a call that has it active is left. -/
def releasedGate (call : ImportCall ext) : ImportGate → ImportGate
  | .active selection cancellationRequested closing =>
    if call.releaseOnDrop then
      match call.failClosedTransactionId with
      | some transactionId => .recoveryRequired selection (some transactionId) closing
      | none => if closing then .closing else .idle
    else .active selection cancellationRequested closing
  | gate => gate

/-- Leave the call: drop what is to be started again, then the claim on the gate. -/
def drop (key : ℕ) : Mutation (ImportSystem ext) Unit := do
  let call ← callOf key
  match call.stage with
  | .returning outcome =>
    if call.restartOnDrop ∧ call.stopped ≠ [] then
      modify (·.setCall
        { call with
          stage := .restarting call.stopped none outcome
          stopped := []
          restartOnDrop := false })
    else do
      Mutation.enabled ((← get).unlocked = true)
      modify fun s =>
        let gate := releasedGate call s.gate
        { s with gate }.setCall
          { call with stage := .returned outcome, released := gate.selection.isNone }
  | _ => throw "not now"

def beginClose : Mutation (ImportSystem ext) Unit := do
  let s ← get
  Mutation.enabled (s.unlocked = true)
  set { s with gate := s.gate.beginClose, closeRequested := true }

/-! ### Runs -/

/-- Actions of the operations that do not start one. -/
def isFree : Supervisor.Action ext → Bool
  | .prepare .. | .insertRecord .. => false
  | _ => true

def operate (action : Supervisor.Action ext) : Mutation (ImportSystem ext) Unit := do
  Mutation.enabled (isFree action = true)
  onOperations action.perform

/-- **What somebody does** between two points at which somebody else may come in. Who starts an
operation is a call that has the lock, or an import. -/
inductive Action (ext : OperationExternals)
  | operate (action : Supervisor.Action ext)
  | operationPermit (request : RuntimeOperationRequest ext)
  | prepare (who : Option ℕ) (operationId : Text) (disposableFile : Bool)
  | insertRecord (who : Option ℕ) (readings : Readings ext) (bound : RuntimeOperationRequest ext)
      (now : ℕ)
  | endStart (who : Option ℕ)
  | acquire (backupCatalogId : Text) (selection : BackupImportSelection)
  | allocateImportId (key : ℕ)
  | preview (key : ℕ) (isObject : Option Bool)
  | plan (readings : Readings ext) (key : ℕ)
  | requestStop (readings : Readings ext) (key : ℕ)
  | poll (readings : Readings ext) (key : ℕ) (timedOut : Bool)
  | restore (key : ℕ) (result : RestoreResult)
  | restart (key : ℕ)
  | unwind (key : ℕ)
  | drop (key : ℕ)
  | beginClose

def Action.perform (catalogue : OperationCatalogue ext) :
    Action ext → Mutation (ImportSystem ext) Unit
  | .operate action => ImportSystem.operate action
  | .operationPermit request => ImportSystem.operationPermit catalogue request
  | .prepare who operationId disposableFile => ImportSystem.prepare who operationId disposableFile
  | .insertRecord who readings bound now =>
    ImportSystem.insertRecord catalogue who readings bound now
  | .endStart who => ImportSystem.endStart who
  | .acquire backupCatalogId selection => ImportSystem.acquire backupCatalogId selection
  | .allocateImportId key => ImportSystem.allocateImportId key
  | .preview key isObject => ImportSystem.preview key isObject
  | .plan readings key => ImportSystem.plan catalogue readings key
  | .requestStop readings key => ImportSystem.requestStop readings key
  | .poll readings key timedOut => ImportSystem.poll readings key timedOut
  | .restore key result => ImportSystem.restore key result
  | .restart key => ImportSystem.restart key
  | .unwind key => ImportSystem.unwind key
  | .drop key => ImportSystem.drop key
  | .beginClose => ImportSystem.beginClose

/-- **The states of the system**: what any actions lead to, in any order. -/
inductive Reachable (catalogue : OperationCatalogue ext) : ImportSystem ext → Prop
  | initial : Reachable catalogue (initial ext)
  | step {s s' : ImportSystem ext} (action : Action ext) (h : Reachable catalogue s)
      (hstep : action.perform catalogue s = .ok () s') : Reachable catalogue s'

end ImportSystem

end LogosInspector.Operations
