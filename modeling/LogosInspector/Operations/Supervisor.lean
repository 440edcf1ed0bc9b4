import LogosInspector.Operations.Registry

/-!
# The supervisor of the operations

Every operation that is admitted runs as a task. A *reducer* receives the admitted operations,
spawns their tasks, and takes each task up when it has exited: it waits for the blocking workers of
the operation, removes its staging file, brings the result into the registry and then either
spawns another task, that waits for a module, or lets the operation go. Clients admit and cancel
operations, module events settle them, and a shutdown stops everything.

All of these run at the same time. The embedding is a state with the shared data of the supervisor
and, for every party, the point that it has reached; an `Action` is what a party does between two
points at which another party may come in. Times are left out: a deadline may pass whenever its
owner looks at it.
-/

namespace LogosInspector.Operations

open Mutation (enabled)

def maxActiveOperations : ℕ := 64

inductive SupervisorPhase
  /-- `Open` -/
  | opened
  | closing
  | closed
  deriving DecidableEq

/-! ### Controls -/

inductive OperationStopReason
  | cancelRequested
  | deadlineExceeded
  | shutdown
  deriving DecidableEq

inductive TerminationEvidence
  | confirmed
  | localOnly
  deriving DecidableEq

structure OperationInterrupted where
  reason : OperationStopReason
  evidence : TerminationEvidence
  message : Text

/-- What the parties share about one operation. -/
structure OperationControl where
  /-- Its own token. It also counts as canceled when the root token is. -/
  cancellation : Bool
  settled : Bool
  stopReason : Option OperationStopReason
  /-- Whether blocking workers may begin, and how many there are. -/
  acceptingWorkers : Bool
  activeWorkers : ℕ
  /-- Whether it has a staging file, and whether that has been created. -/
  disposableFile : Bool
  fileCreated : Bool

namespace OperationControl

def new (disposableFile : Bool) : OperationControl :=
  { cancellation := false
    settled := false
    stopReason := none
    acceptingWorkers := true
    activeWorkers := 0
    disposableFile
    fileCreated := false }

/-- The first reason stays. -/
def requestCancel (control : OperationControl) : OperationControl :=
  { control with
    stopReason := control.stopReason.or (some .cancelRequested)
    cancellation := true }

/-- A reason that takes the place of a cancellation. -/
def requestStop (reason : OperationStopReason) (control : OperationControl) : OperationControl :=
  { control with
    stopReason :=
      match control.stopReason with
      | some .deadlineExceeded => some .deadlineExceeded
      | some .shutdown => some .shutdown
      | _ => some reason
    cancellation := true }

def requestDeadline : OperationControl → OperationControl := requestStop .deadlineExceeded

def requestShutdown : OperationControl → OperationControl := requestStop .shutdown

def settle (control : OperationControl) : OperationControl := { control with settled := true }

def stopAccepting (control : OperationControl) : OperationControl :=
  { control with acceptingWorkers := false }

end OperationControl

/-! ### Tasks -/

inductive OperationTaskResult
  | resolved (outcome : RuntimeOperationOutcome)
  | executionFailed (error : Text)
  | interrupted (interrupted : OperationInterrupted)
  | cleanupUnconfirmed (error : Text)
  | adapterClosed (error : Text)

inductive ExternalWaitResult
  | settled
  | deadline
  | cleanupSettlementGraceElapsed
  | shutdown
  deriving DecidableEq

inductive OperationTaskExit
  | execution (operationId : Text) (result : OperationTaskResult)
  | external (operationId : Text) (result : ExternalWaitResult)

inductive JoinError
  | panicked (error : Text)
  | aborted (error : Text)

inductive TaskKind
  | execution
  | external
  deriving DecidableEq

inductive ExternalWaitPolicy
  | operationDeadline
  | cleanupSettlement
  | cleanupEvidence
  deriving DecidableEq

/-- A task of the reducer's set of tasks. -/
structure OperationTask where
  taskId : ℕ
  operationId : Text
  kind : TaskKind
  waitPolicy : ExternalWaitPolicy
  /-- How it has exited. -/
  joined : Option (Except JoinError OperationTaskExit)

structure LiveOperationTask where
  operationId : Text
  taskId : ℕ

/-- What the reducer keeps of a task. It holds the admission permit of the operation. -/
structure TaskDescriptor where
  taskId : ℕ
  operationId : Text
  /-- Whether there is a staging file to be removed. -/
  cleanup : Bool
  kind : TaskKind
  externalWaitPolicy : ExternalWaitPolicy
  cleanupUncertainty : Option Text

def transitionForExecutionResult : OperationTaskResult → RuntimeOperationTransition
  | .resolved outcome => .resolved outcome
  | .executionFailed error => .executionFailed error
  | .cleanupUnconfirmed error => .cleanupUnconfirmed error
  | .interrupted ⟨.cancelRequested, .confirmed, message⟩ => .cancellationConfirmed (some message)
  | .interrupted ⟨.cancelRequested, .localOnly, message⟩ => .cancellationUnconfirmed message
  | .interrupted ⟨.deadlineExceeded, _, message⟩ => .timedOut message
  | .interrupted ⟨.shutdown, _, message⟩ => .shutdown message
  | .adapterClosed error => .adapterClosed error

/-- What an execution leaves open about its cleanup. -/
def TaskDescriptor.noting (descriptor : TaskDescriptor) : OperationTaskResult → TaskDescriptor
  | .cleanupUnconfirmed error =>
    { descriptor with
      externalWaitPolicy := .cleanupSettlement
      cleanupUncertainty := some error }
  | .interrupted ⟨_, .localOnly, message⟩ =>
    { descriptor with cleanupUncertainty := some message }
  | _ => descriptor

def shutdownMessage : Option Text → Text
  | none => "runtime operation stopped during shutdown".toList
  | some uncertainty =>
    "runtime operation stopped during shutdown; cleanup remains unconfirmed: ".toList ++ uncertainty

/-- **What an exit means**: what the descriptor becomes, the transition that it calls for, and
whether the operation may wait for a module. The task has to be the one of the descriptor. -/
def exitTransition (exit : OperationTaskExit) (descriptor : TaskDescriptor) :
    Except String (TaskDescriptor × Option RuntimeOperationTransition × Bool) :=
  let mismatch := "runtime operation task identity did not match its descriptor"
  match exit with
  | .execution operationId result =>
    if descriptor.operationId ≠ operationId ∨ descriptor.kind ≠ .execution then .error mismatch
    else .ok (descriptor.noting result, some (transitionForExecutionResult result), true)
  | .external operationId result =>
    if descriptor.operationId ≠ operationId ∨ descriptor.kind ≠ .external then .error mismatch
    else match result with
      | .settled => .ok (descriptor, none, false)
      | .deadline =>
        .ok (descriptor, some (.timedOut "runtime operation deadline elapsed".toList), false)
      | .cleanupSettlementGraceElapsed =>
        .ok ({ descriptor with externalWaitPolicy := .cleanupEvidence }, some (.cleanupUnconfirmed
            "cleanup settlement grace elapsed without external termination evidence".toList), true)
      | .shutdown =>
        .ok (descriptor, some (.shutdown (shutdownMessage descriptor.cleanupUncertainty)), false)

def joinErrorTransition : JoinError → RuntimeOperationTransition
  | .panicked error => .taskPanicked ("runtime operation task panicked: ".toList ++ error)
  | .aborted error => .taskAborted ("runtime operation task was aborted: ".toList ++ error)

/-! ### The parties -/

/-- How far a client has come that starts an operation. -/
inductive ClientStage
  /-- It has a permit. -/
  | prepared
  /-- The registry has a record. -/
  | inserted
  | started
  /-- The supervisor has the control. -/
  | controlled
  | synchronized
  /-- It has failed, and takes the control back. -/
  | uncontrolled
  /-- It has failed, and takes the record back. -/
  | unrecorded
  deriving DecidableEq

/-- What the reducer is doing with an operation. -/
inductive Reduction
  /-- It waits for the blocking workers. -/
  | awaitingIdle (joined : Except JoinError OperationTaskExit) (descriptor : TaskDescriptor)
  /-- It is about to remove the staging file. -/
  | cleaning (joined : Except JoinError OperationTaskExit) (descriptor : TaskDescriptor)
  /-- It is about to end the operation. -/
  | ending (transition : RuntimeOperationTransition) (descriptor : TaskDescriptor)
  | exiting (exit : OperationTaskExit) (descriptor : TaskDescriptor)
  /-- It is about to read the status. -/
  | reading (retainExternal : Bool) (descriptor : TaskDescriptor)
  | respawning (descriptor : TaskDescriptor)
  | finishing (descriptor : TaskDescriptor)
  /-- It has ended an operation that it has not launched. -/
  | drained (operationId : Text)

def Reduction.operationId : Reduction → Text
  | .awaitingIdle _ descriptor | .cleaning _ descriptor | .ending _ descriptor
  | .exiting _ descriptor | .reading _ descriptor | .respawning descriptor
  | .finishing descriptor => descriptor.operationId
  | .drained operationId => operationId

inductive ReducerMode
  | unstarted
  | running
  | shuttingDown
  /-- It has failed. -/
  | failed
  /-- It has failed, has closed the supervisor and joins what is left. -/
  | failing
  | exited (ok : Bool)
  deriving DecidableEq

/-- What is done when the reducer has stopped, first by its watcher and then, if that has found a
failure, by the one that shuts down (`owner`). -/
inductive Recovery
  | waiting
  | closing
  | aborting (owner : Bool)
  | awaitingIdle (owner : Bool) (trackers : Finset Text)
  | draining (owner : Bool)
  | classifying (owner : Bool) (operations : Finset Text)
  | finished (ok : Bool)
  deriving DecidableEq

inductive ControllerState
  | unstarted
  | running
  | draining
  | stopped
  deriving DecidableEq

structure Supervisor (ext : OperationExternals) where
  registry : RegistryState ext
  phase : SupervisorPhase
  /-- The root token. -/
  root : Bool
  /-- The operations that the supervisor has the control of. -/
  controls : Finset Text
  control : Text → OperationControl
  liveTasks : Table (fun task : LiveOperationTask => task.operationId)
  tasks : Table (fun task : OperationTask => task.taskId)
  descriptors : Table (fun descriptor : TaskDescriptor => descriptor.taskId)
  nextTaskId : ℕ
  /-- The admitted operations that the reducer has not received. -/
  commands : List Text
  commandsClosed : Bool
  /-- The operations that hold a permit. -/
  permits : Finset Text
  admissionClosed : Bool
  controller : ControllerState
  reducer : ReducerMode
  reduction : Option Reduction
  recovery : Recovery
  /-- Whether someone is about to cancel the root token. -/
  closingRoot : Bool
  clients : Text → Option ClientStage
  /-- The operations that someone is about to cancel. -/
  canceling : Finset Text
  /-- The operations that someone is about to settle. -/
  settling : Finset Text
  /-- All ids that were given out; the operations that were admitted; those that were launched; and
  those whose cleanup was run. -/
  allocated : Finset Text
  admitted : Finset Text
  launched : Finset Text
  cleaned : Finset Text

namespace Supervisor

variable {ext : OperationExternals}

def initial (ext : OperationExternals) : Supervisor ext :=
  { registry := RegistryState.initial ext
    phase := .opened
    root := false
    controls := ∅
    control := fun _ => .new false
    liveTasks := Table.empty
    tasks := Table.empty
    descriptors := Table.empty
    nextTaskId := 0
    commands := []
    commandsClosed := false
    permits := ∅
    admissionClosed := false
    controller := .unstarted
    reducer := .unstarted
    reduction := none
    recovery := .waiting
    closingRoot := false
    clients := fun _ => none
    canceling := ∅
    settling := ∅
    allocated := ∅
    admitted := ∅
    launched := ∅
    cleaned := ∅ }

def onRegistry {α : Type} : Mutation (RegistryState ext) α → Mutation (Supervisor ext) α :=
  Mutation.zoom (·.registry) fun s registry => { s with registry }

/-- Change the control of one operation. -/
def updateControl (s : Supervisor ext) (operationId : Text)
    (change : OperationControl → OperationControl) : Supervisor ext :=
  { s with control := Function.update s.control operationId (change (s.control operationId)) }

/-- Change the controls that the supervisor has. -/
def updateControls (s : Supervisor ext) (change : OperationControl → OperationControl) :
    Supervisor ext :=
  { s with
    control := fun operationId =>
      if operationId ∈ s.controls then change (s.control operationId) else s.control operationId }

def setClient (s : Supervisor ext) (operationId : Text) (stage : Option ClientStage) :
    Supervisor ext :=
  { s with clients := Function.update s.clients operationId stage }

/-- Let go of an operation. -/
def release (s : Supervisor ext) (operationId : Text) : Supervisor ext :=
  { s with permits := s.permits.erase operationId }

/-! ### Clients -/

/-- Get an id and a permit. The first time, the reducer and its watcher are started. -/
def prepare (operationId : Text) (disposableFile : Bool) : Mutation (Supervisor ext) Unit := do
  let s ← get
  enabled (s.phase = .opened ∧ (s.controller = .unstarted ∨ s.controller = .running) ∧
    s.admissionClosed = false ∧ s.permits.card < maxActiveOperations ∧ operationId ∉ s.allocated)
  set
    { s with
      controller := .running
      reducer := if s.reducer = ReducerMode.unstarted then .running else s.reducer
      permits := Insert.insert operationId s.permits
      control := Function.update s.control operationId (.new disposableFile)
      clients := Function.update s.clients operationId (some .prepared)
      allocated := Insert.insert operationId s.allocated }

def insertRecord (readings : Readings ext) (operationId : Text)
    (request : RuntimeOperationRequest ext) (now : ℕ) : Mutation (Supervisor ext) Unit := do
  let s ← get
  enabled (s.clients operationId = some .prepared)
  match Operations.insert readings (runningRuntimeOperationRecord operationId request now)
      s.registry with
  | .ok _ registry => set ({ s with registry }.setClient operationId (some .inserted))
  | .error _ registry => set (({ s with registry }.setClient operationId none).release operationId)

def startRecord (readings : Readings ext) (operationId : Text) :
    Mutation (Supervisor ext) Unit := do
  let s ← get
  enabled (s.clients operationId = some .inserted)
  let _ ← onRegistry (transition readings operationId .started)
  modify (·.setClient operationId (some .started))

/-- Give the control to the supervisor. -/
def admitOperation (operationId : Text) : Mutation (Supervisor ext) Unit := do
  let s ← get
  enabled (s.clients operationId = some .started)
  if s.phase = .opened ∧ operationId ∉ s.controls then
    set ({ s with controls := Insert.insert operationId s.controls }.setClient operationId
      (some .controlled))
  else set ((s.setClient operationId (some .unrecorded)).release operationId)

/-- See whether the operation was canceled before the supervisor had its control. -/
def synchronizeAdmittedControl (readings : Readings ext) (operationId : Text) :
    Mutation (Supervisor ext) Unit := do
  let s ← get
  enabled (s.clients operationId = some .controlled)
  if operationId ∉ s.controls then set (s.setClient operationId (some .uncontrolled))
  else if s.phase ≠ .opened then
    set ((s.updateControl operationId .requestShutdown).setClient operationId (some .synchronized))
  else
    let records ← onRegistry (inspect readings)
    match records.find? operationId with
    | none => modify (·.setClient operationId (some .uncontrolled))
    | some record =>
      if record.operation.status = .canceling then
        modify (·.updateControl operationId .requestCancel)
      modify (·.setClient operationId (some .synchronized))

/-- Send the admission to the reducer. -/
def send (operationId : Text) : Mutation (Supervisor ext) Unit := do
  let s ← get
  enabled (s.clients operationId = some .synchronized ∧ s.commandsClosed = false ∧
    s.commands.length < maxActiveOperations)
  set ({ s with
    commands := s.commands ++ [operationId]
    admitted := Insert.insert operationId s.admitted }.setClient operationId none)

/-- The admission cannot be sent. -/
def failToSend (operationId : Text) : Mutation (Supervisor ext) Unit := do
  let s ← get
  enabled (s.clients operationId = some .synchronized)
  set (s.setClient operationId (some .uncontrolled))

def removeControl (operationId : Text) : Mutation (Supervisor ext) Unit := do
  let s ← get
  enabled (s.clients operationId = some .uncontrolled)
  set (({ s with controls := s.controls.erase operationId }.setClient operationId
    (some .unrecorded)).release operationId)

def removeRecord (operationId : Text) : Mutation (Supervisor ext) Unit := do
  let s ← get
  enabled (s.clients operationId = some .unrecorded)
  onRegistry (Operations.remove operationId)
  modify (·.setClient operationId none)

/-! ### Everybody else -/

/-- Cancel an operation: first in the registry, … -/
def requestCancel (readings : Readings ext) (operationId : Text) :
    Mutation (Supervisor ext) Unit := do
  let disposition ← onRegistry (transition readings operationId .cancelRequested)
  modify fun s =>
    if disposition = .applied then
      { s with canceling := Insert.insert operationId s.canceling }
    else s

/-- … and, if that has changed anything, in the supervisor. -/
def cancel (operationId : Text) : Mutation (Supervisor ext) Unit := do
  let s ← get
  enabled (operationId ∈ s.canceling)
  let s := { s with canceling := s.canceling.erase operationId }
  set (if operationId ∈ s.controls then s.updateControl operationId .requestCancel else s)

/-- A module event arrives: first in the registry, … -/
def reduceModuleEvent (readings : Readings ext) (event : ModuleEventEnvelope) :
    Mutation (Supervisor ext) Unit := do
  let (_, settled) ← onRegistry (ingestModuleEventWithSettlement readings event)
  modify fun s =>
    match settled with
    | none => s
    | some operationId => { s with settling := Insert.insert operationId s.settling }

/-- … and, if it has ended an operation, in the supervisor. -/
def settle (operationId : Text) : Mutation (Supervisor ext) Unit := do
  let s ← get
  enabled (operationId ∈ s.settling)
  let s := { s with settling := s.settling.erase operationId }
  set (if operationId ∈ s.controls then s.updateControl operationId .settle else s)

/-- Look at the registry, which sweeps it. -/
def inspectRegistry (readings : Readings ext) : Mutation (Supervisor ext) Unit := do
  let _ ← onRegistry (inspect readings)

/-! ### Tasks -/

/-- Whether the task that executes an operation is running. -/
def executes (s : Supervisor ext) (operationId : Text) : Bool :=
  s.tasks.records.any fun task =>
    task.operationId = operationId && task.kind = .execution && task.joined.isNone

def reportProgress (readings : Readings ext) (operationId : Text) (bytesWritten : ℕ)
    (contentLength : Option ℕ) : Mutation (Supervisor ext) Unit := do
  let s ← get
  enabled (s.executes operationId = true)
  let _ ← onRegistry (transition readings operationId (.progress bytesWritten contentLength))

/-- A blocking worker begins, … -/
def beginWorker (operationId : Text) : Mutation (Supervisor ext) Unit := do
  let s ← get
  enabled (operationId ∈ s.launched ∧ (s.control operationId).acceptingWorkers = true)
  set (s.updateControl operationId fun control =>
    { control with activeWorkers := control.activeWorkers + 1 })

/-- … and ends. -/
def endWorker (operationId : Text) : Mutation (Supervisor ext) Unit := do
  let s ← get
  enabled (0 < (s.control operationId).activeWorkers)
  set (s.updateControl operationId fun control =>
    { control with activeWorkers := control.activeWorkers - 1 })

def createFile (operationId : Text) : Mutation (Supervisor ext) Unit := do
  let s ← get
  enabled (s.executes operationId = true)
  set (s.updateControl operationId fun control =>
    { control with fileCreated := control.disposableFile })

/-- The task or the reducer sees that the deadline has passed. -/
def passDeadline (operationId : Text) : Mutation (Supervisor ext) Unit := do
  let s ← get
  enabled (operationId ∈ s.launched)
  set (s.updateControl operationId .requestDeadline)

/-- What an execution may report of its own interruption: the reason is the one of the control,
unless it has seen the deadline pass. -/
def MayReport (s : Supervisor ext) (operationId : Text) : OperationTaskResult → Prop
  | .interrupted interrupted => interrupted.reason = .deadlineExceeded ∨
    (((s.control operationId).cancellation = true ∨ s.root = true) ∧
      interrupted.reason = (s.control operationId).stopReason.getD .cancelRequested)
  | _ => True

instance (s : Supervisor ext) (operationId : Text) (result : OperationTaskResult) :
    Decidable (s.MayReport operationId result) := by
  unfold MayReport
  split <;> infer_instance

/-- What a task that waits for a module may wake up to. -/
def MayWake (s : Supervisor ext) (task : OperationTask) : ExternalWaitResult → Prop
  | .settled => (s.control task.operationId).settled = true
  | .deadline => task.waitPolicy = .operationDeadline
  | .cleanupSettlementGraceElapsed => task.waitPolicy = .cleanupSettlement
  | .shutdown => s.root = true

instance (s : Supervisor ext) (task : OperationTask) (result : ExternalWaitResult) :
    Decidable (s.MayWake task result) := by
  cases result <;> (unfold MayWake; infer_instance)

/-- A task exits. -/
def exitTask (taskId : ℕ) (joined : Except JoinError OperationTaskExit) :
    Mutation (Supervisor ext) Unit := do
  let s ← get
  let task ← Mutation.ofExcept (required (s.tasks.find? taskId) "not now")
  enabled (task.joined.isNone = true)
  match joined with
  | .error _ => pure ()
  | .ok (.execution operationId result) =>
    enabled (task.kind = .execution ∧ task.operationId = operationId ∧
      s.MayReport operationId result)
  | .ok (.external operationId result) =>
    enabled (task.kind = .external ∧ task.operationId = operationId ∧ s.MayWake task result)
  set { s with tasks := s.tasks.insert { task with joined := some joined } }

/-! ### The reducer -/

/-- The reducer fails. While it joins what is left it goes on. -/
def fail (s : Supervisor ext) : Supervisor ext :=
  { s with
    reducer := if s.reducer = .failing then .failing else .failed
    reduction := none }

/-- Spawn the task of a descriptor. An operation cannot have two. -/
def spawnOperationTask (s : Supervisor ext) (descriptor : TaskDescriptor) : Supervisor ext :=
  if s.liveTasks.contains descriptor.operationId then (s.release descriptor.operationId).fail
  else
    { s with
      tasks := s.tasks.insert ⟨s.nextTaskId, descriptor.operationId, descriptor.kind,
        descriptor.externalWaitPolicy, none⟩
      liveTasks := s.liveTasks.insert ⟨descriptor.operationId, s.nextTaskId⟩
      descriptors := s.descriptors.insert { descriptor with taskId := s.nextTaskId }
      nextTaskId := s.nextTaskId + 1
      reduction := none }

/-- Receive an admission. -/
def launchCommand : Mutation (Supervisor ext) Unit := do
  let s ← get
  enabled (s.reducer = .running ∧ s.reduction.isNone = true)
  match s.commands with
  | [] => throw "not now"
  | operationId :: commands =>
    set ({ s with
      commands
      launched := Insert.insert operationId s.launched }.spawnOperationTask
        { taskId := 0
          operationId
          cleanup := (s.control operationId).disposableFile
          kind := .execution
          externalWaitPolicy := .operationDeadline
          cleanupUncertainty := none })

/-- See that the root token is canceled, or that nobody can send anything any more. -/
def startShutdown : Mutation (Supervisor ext) Unit := do
  let s ← get
  enabled (s.reducer = .running ∧ s.reduction.isNone = true ∧
    (s.root = true ∨ s.controller ≠ .running))
  set { s.updateControls .requestShutdown with reducer := .shuttingDown }

def closeCommands : Mutation (Supervisor ext) Unit := do
  let s ← get
  enabled (s.reducer = .shuttingDown ∧ s.reduction.isNone = true)
  set { s with commandsClosed := true }

def failCloseSupervisor (s : Supervisor ext) : Supervisor ext :=
  { s.updateControls .requestShutdown with
    phase := if s.phase = .closed then .closed else .closing
    root := true }

/-- Having failed, close everything. -/
def closeAfterFailure : Mutation (Supervisor ext) Unit := do
  let s ← get
  enabled (s.reducer = .failed)
  set { s.failCloseSupervisor with reducer := .failing, commandsClosed := true }

/-- End an operation that will not be launched. -/
def drainPendingAdmission (readings : Readings ext) : Mutation (Supervisor ext) Unit := do
  let s ← get
  enabled ((s.reducer = .shuttingDown ∨ s.reducer = .failing) ∧ s.commandsClosed = true ∧
    s.reduction.isNone = true)
  match s.commands with
  | [] => throw "not now"
  | operationId :: commands =>
    let _ ← onRegistry (transition readings operationId
      (.shutdown "runtime operation stopped before execution during shutdown".toList))
    modify fun s => { s with commands, reduction := some (.drained operationId) }

/-- Take up a task that has exited. -/
def joinTask (taskId : ℕ) : Mutation (Supervisor ext) Unit := do
  let s ← get
  enabled (s.reduction.isNone = true ∧ (s.reducer = .running ∨
    ((s.reducer = .shuttingDown ∨ s.reducer = .failing) ∧ s.commandsClosed = true ∧
      s.commands = [])))
  let task ← Mutation.ofExcept (required (s.tasks.find? taskId) "not now")
  let joined ← Mutation.ofExcept (required task.joined "not now")
  let s := { s with tasks := s.tasks.erase taskId }
  match s.descriptors.find? taskId with
  | none => set s.fail
  | some descriptor =>
    let s := { s with descriptors := s.descriptors.erase taskId }
    if ((s.liveTasks.find? descriptor.operationId).map (·.taskId)) ≠ some taskId then
      set (s.release descriptor.operationId).fail
    else
      set { s.updateControl descriptor.operationId .stopAccepting with
        liveTasks := s.liveTasks.erase descriptor.operationId
        reduction := some (.awaitingIdle joined descriptor) }

/-- Go on with a task that has exited. `cleanupError` is what removing its file comes to. -/
def reduce (readings : Readings ext) (cleanupError : Option Text) :
    Mutation (Supervisor ext) Unit := do
  let s ← get
  match s.reduction with
  | none => throw "not now"
  | some (.awaitingIdle joined descriptor) =>
    enabled ((s.control descriptor.operationId).activeWorkers = 0)
    set { s with reduction := some (.cleaning joined descriptor) }
  | some (.cleaning joined descriptor) =>
    enabled (cleanupError.isSome = true →
      descriptor.cleanup = true ∧ (s.control descriptor.operationId).fileCreated = true)
    set { s with
      cleaned := Insert.insert descriptor.operationId s.cleaned
      reduction := some <| match cleanupError, joined with
        | some error, _ => .ending (.cleanupFailed error) descriptor
        | none, .error error => .ending (joinErrorTransition error) descriptor
        | none, .ok exit => .exiting exit descriptor }
  | some (.ending change descriptor) =>
    let _ ← onRegistry (transition readings descriptor.operationId change)
    modify fun s => { s with reduction := some (.finishing descriptor) }
  | some (.exiting exit descriptor) =>
    match exitTransition exit descriptor with
    | .error _ => set (s.release descriptor.operationId).fail
    | .ok (descriptor, change, retainExternal) =>
      change.forM fun change => do
        let _ ← onRegistry (transition readings descriptor.operationId change)
      modify fun s => { s with reduction := some (.reading retainExternal descriptor) }
  | some (.reading retainExternal descriptor) =>
    let records ← onRegistry (inspect readings)
    match records.find? descriptor.operationId with
    | none => modify fun s => (s.release descriptor.operationId).fail
    | some record =>
      let waits := retainExternal && (record.operation.status = .awaitingExternal ||
        record.operation.status = .canceling)
      modify fun s =>
        { s with
          reduction := some <|
            if waits then .respawning { descriptor with kind := .external, cleanup := false }
            else .finishing descriptor }
  | some (.respawning descriptor) => set (s.spawnOperationTask descriptor)
  | some (.finishing descriptor) =>
    set { s.release descriptor.operationId with
      controls := s.controls.erase descriptor.operationId
      reduction := none }
  | some (.drained operationId) =>
    set { s.release operationId with
      controls := s.controls.erase operationId
      reduction := none }

/-- Nothing is left to be done. -/
def exitReducer : Mutation (Supervisor ext) Unit := do
  let s ← get
  enabled ((s.reducer = .shuttingDown ∨ s.reducer = .failing) ∧ s.commandsClosed = true ∧
    s.commands = [] ∧ s.tasks.records = [] ∧ s.reduction.isNone = true)
  set { s with
    reducer := .exited
      (s.reducer = ReducerMode.shuttingDown && s.controls = ∅ && s.liveTasks.records.isEmpty) }

/-! ### When the reducer has stopped -/

/-- The watcher of the reducer sees that it has stopped. -/
def watchSupervisor : Mutation (Supervisor ext) Unit := do
  let s ← get
  enabled (s.recovery = .waiting)
  match s.reducer with
  | .exited ok =>
    set (if ok = true ∧ s.phase ≠ .opened then { s with recovery := .finished true }
      else { s with recovery := .closing, admissionClosed := true })
  | _ => throw "not now"

/-- Go on with what is to be done then. The operation is the one to be classified next, with what
removing its file comes to and the error that it gets. -/
def recover (readings : Readings ext) (operationId : Text) (cleanupError : Option Text)
    (error : Text) : Mutation (Supervisor ext) Unit := do
  let s ← get
  match s.recovery with
  | .waiting | .finished _ => throw "not now"
  | .closing => set { s.failCloseSupervisor with recovery := .aborting false }
  | .aborting owner =>
    set { s.updateControls .stopAccepting with
      liveTasks := Table.empty
      recovery := .awaitingIdle owner s.controls }
  | .awaitingIdle owner trackers =>
    enabled (∀ tracker ∈ trackers, (s.control tracker).activeWorkers = 0)
    set { s with recovery := .draining owner }
  | .draining owner =>
    set { s with
      controls := ∅
      recovery := .classifying owner s.controls }
  | .classifying owner operations =>
    if operations = ∅ then
      set { s with
        phase := .closed
        controller := if owner = true then .stopped else s.controller
        recovery := .finished false }
    else
      enabled (operationId ∈ operations ∧ (cleanupError.isSome = true →
        (s.control operationId).disposableFile = true ∧ (s.control operationId).fileCreated = true))
      let _ ← onRegistry (transition readings operationId <|
        match cleanupError with
        | none => .taskAborted error
        | some error => .cleanupFailed error)
      modify fun s =>
        { s with
          cleaned := Insert.insert operationId s.cleaned
          recovery := .classifying owner (operations.erase operationId) }

/-! ### Shutting down -/

def beginClose : Mutation (Supervisor ext) Unit := do
  let s ← get
  enabled (s.phase = .opened)
  set { s.updateControls .requestShutdown with
    phase := .closing
    closingRoot := true }

def cancelRoot : Mutation (Supervisor ext) Unit := do
  let s ← get
  enabled (s.closingRoot = true)
  set { s with root := true, closingRoot := false }

/-- Take the controller, which only one can. -/
def takeController : Mutation (Supervisor ext) Unit := do
  let s ← get
  enabled (s.phase ≠ .opened ∧ (s.controller = .unstarted ∨ s.controller = .running))
  set { s with controller := .draining }

/-- The watcher has finished, or was never started. If it has found a failure, the one who shuts
down does what the watcher has done once more. -/
def drainController : Mutation (Supervisor ext) Unit := do
  let s ← get
  enabled (s.controller = .draining)
  if s.reducer = .unstarted ∨ s.recovery = .finished true then
    set { s with controller := .stopped, phase := .closed }
  else
    enabled (s.recovery = .finished false)
    set { s with recovery := .aborting true }

/-! ### Runs -/

/-- **What somebody does** between two points at which somebody else may come in. -/
inductive Action (ext : OperationExternals)
  | prepare (operationId : Text) (disposableFile : Bool)
  | insertRecord (readings : Readings ext) (operationId : Text)
      (request : RuntimeOperationRequest ext) (now : ℕ)
  | startRecord (readings : Readings ext) (operationId : Text)
  | admitOperation (operationId : Text)
  | synchronizeAdmittedControl (readings : Readings ext) (operationId : Text)
  | send (operationId : Text)
  | failToSend (operationId : Text)
  | removeControl (operationId : Text)
  | removeRecord (operationId : Text)
  | requestCancel (readings : Readings ext) (operationId : Text)
  | cancel (operationId : Text)
  | reduceModuleEvent (readings : Readings ext) (event : ModuleEventEnvelope)
  | settle (operationId : Text)
  | inspectRegistry (readings : Readings ext)
  | reportProgress (readings : Readings ext) (operationId : Text) (bytesWritten : ℕ)
      (contentLength : Option ℕ)
  | beginWorker (operationId : Text)
  | endWorker (operationId : Text)
  | createFile (operationId : Text)
  | passDeadline (operationId : Text)
  | exitTask (taskId : ℕ) (joined : Except JoinError OperationTaskExit)
  | launchCommand
  | startShutdown
  | closeCommands
  | closeAfterFailure
  | drainPendingAdmission (readings : Readings ext)
  | joinTask (taskId : ℕ)
  | reduce (readings : Readings ext) (cleanupError : Option Text)
  | exitReducer
  | watchSupervisor
  | recover (readings : Readings ext) (operationId : Text) (cleanupError : Option Text)
      (error : Text)
  | beginClose
  | cancelRoot
  | takeController
  | drainController

def Action.perform : Action ext → Mutation (Supervisor ext) Unit
  | .prepare operationId disposableFile => Supervisor.prepare operationId disposableFile
  | .insertRecord readings operationId request now =>
    Supervisor.insertRecord readings operationId request now
  | .startRecord readings operationId => Supervisor.startRecord readings operationId
  | .admitOperation operationId => Supervisor.admitOperation operationId
  | .synchronizeAdmittedControl readings operationId =>
    Supervisor.synchronizeAdmittedControl readings operationId
  | .send operationId => Supervisor.send operationId
  | .failToSend operationId => Supervisor.failToSend operationId
  | .removeControl operationId => Supervisor.removeControl operationId
  | .removeRecord operationId => Supervisor.removeRecord operationId
  | .requestCancel readings operationId => Supervisor.requestCancel readings operationId
  | .cancel operationId => Supervisor.cancel operationId
  | .reduceModuleEvent readings event => Supervisor.reduceModuleEvent readings event
  | .settle operationId => Supervisor.settle operationId
  | .inspectRegistry readings => Supervisor.inspectRegistry readings
  | .reportProgress readings operationId bytesWritten contentLength =>
    Supervisor.reportProgress readings operationId bytesWritten contentLength
  | .beginWorker operationId => Supervisor.beginWorker operationId
  | .endWorker operationId => Supervisor.endWorker operationId
  | .createFile operationId => Supervisor.createFile operationId
  | .passDeadline operationId => Supervisor.passDeadline operationId
  | .exitTask taskId joined => Supervisor.exitTask taskId joined
  | .launchCommand => Supervisor.launchCommand
  | .startShutdown => Supervisor.startShutdown
  | .closeCommands => Supervisor.closeCommands
  | .closeAfterFailure => Supervisor.closeAfterFailure
  | .drainPendingAdmission readings => Supervisor.drainPendingAdmission readings
  | .joinTask taskId => Supervisor.joinTask taskId
  | .reduce readings cleanupError => Supervisor.reduce readings cleanupError
  | .exitReducer => Supervisor.exitReducer
  | .watchSupervisor => Supervisor.watchSupervisor
  | .recover readings operationId cleanupError error =>
    Supervisor.recover readings operationId cleanupError error
  | .beginClose => Supervisor.beginClose
  | .cancelRoot => Supervisor.cancelRoot
  | .takeController => Supervisor.takeController
  | .drainController => Supervisor.drainController

/-- **The states of a supervisor**: what any actions lead to, in any order. -/
inductive Reachable : Supervisor ext → Prop
  | initial : Reachable (initial ext)
  | step {s s' : Supervisor ext} (action : Action ext) (h : Reachable s)
      (hstep : action.perform s = .ok () s') : Reachable s'

end Supervisor

end LogosInspector.Operations
