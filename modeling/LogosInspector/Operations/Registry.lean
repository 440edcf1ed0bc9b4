import LogosInspector.Operations.Transition

/-!
# The registry of operations

The registry has the records of the operations, the module events that arrived before the
operation they are for had been accepted, and the order in which operations have ended.

A module event that no accepted operation waits for is *deferred*, if some operation has been sent
to its module and has not been resolved: it is put into the journal of the module, with those
operations as candidates. When one of them is resolved the journal is replayed to it.

Records of operations that are over are kept for a day, up to `128` of them, and up to `32` MiB of
results and acknowledgements. Every call of the registry begins and ends with a sweep that sees to
this. The clocks are arguments: nothing is assumed of them.

The byte counts are those of values in memory, so their sums do not overflow.
-/

namespace LogosInspector.Operations

def maxPendingModuleEvents : ℕ := 32

def maxPendingModuleEventBytes : ℕ := 256 * 1024

def maxRetainedTerminalRecords : ℕ := 128

def maxRetainedTerminalPayloadBytes : ℕ := 32 * 1024 * 1024

def terminalRecordMaxAgeMillis : ℕ := 24 * 60 * 60 * 1000

/-! ### Journals -/

structure PendingModuleEvent where
  event : ModuleEventEnvelope
  candidateOperationIds : List Text
  eventBytes : ℕ

/-- The deferred events of a module, the oldest first. -/
structure PendingModuleEventJournal where
  moduleName : Text
  events : List PendingModuleEvent
  retainedBytes : ℕ

namespace PendingModuleEventJournal

def empty (moduleName : Text) : PendingModuleEventJournal := ⟨moduleName, [], 0⟩

def pushBack (journal : PendingModuleEventJournal) (pending : PendingModuleEvent) :
    Except String PendingModuleEventJournal := do
  reject (maxPendingModuleEvents ≤ journal.events.length)
    "pending runtime module event journal count limit exceeded"
  reject (maxPendingModuleEventBytes < journal.retainedBytes + pending.eventBytes)
    "pending runtime module event journal byte limit exceeded"
  pure
    { journal with
      events := journal.events ++ [pending]
      retainedBytes := journal.retainedBytes + pending.eventBytes }

/-- The journal with its bytes counted again. -/
def recounted (journal : PendingModuleEventJournal) : PendingModuleEventJournal :=
  { journal with retainedBytes := (journal.events.map (·.eventBytes)).sum }

def recalculateRetainedBytes (journal : PendingModuleEventJournal) :
    Except String PendingModuleEventJournal := do
  reject (maxPendingModuleEvents < journal.events.length ∨
    maxPendingModuleEventBytes < journal.recounted.retainedBytes)
    "pending runtime module event journal invariant violated"
  pure journal.recounted

/-- Drop the oldest events until there is room for one of `bytes` bytes. -/
def makeRoom (bytes : ℕ) : List PendingModuleEvent → ℕ →
    Except String (List PendingModuleEvent × ℕ × List PendingModuleEvent)
  | [], retainedBytes =>
    if retainedBytes + bytes ≤ maxPendingModuleEventBytes then .ok ([], retainedBytes, [])
    else .error "pending runtime module event journal cannot satisfy its byte limit"
  | pending :: events, retainedBytes =>
    if (pending :: events).length < maxPendingModuleEvents ∧
        retainedBytes + bytes ≤ maxPendingModuleEventBytes then
      .ok (pending :: events, retainedBytes, [])
    else if retainedBytes < pending.eventBytes then
      .error "pending runtime module event byte accounting underflow"
    else do
      let (events, retainedBytes, evicted) ←
        makeRoom bytes events (retainedBytes - pending.eventBytes)
      pure (events, retainedBytes, pending :: evicted)

/-- The journal without a candidate. -/
def withoutOperation (operationId : Text) (journal : PendingModuleEventJournal) :
    PendingModuleEventJournal :=
  { journal with
    events := (journal.events.map fun pending =>
      { pending with
        candidateOperationIds := pending.candidateOperationIds.filter (· ≠ operationId) }).filter
      fun pending => pending.candidateOperationIds ≠ [] }

theorem recounted_withoutOperation_moduleName (op : Text) (journal : PendingModuleEventJournal) :
    (journal.withoutOperation op).recounted.moduleName = journal.moduleName := rfl

end PendingModuleEventJournal

/-- The journals of the modules. -/
abbrev Journals := Table (fun journal : PendingModuleEventJournal => journal.moduleName)

structure RegistryState (ext : OperationExternals) where
  records : Records ext
  pendingModuleEvents : Journals
  /-- The operations that are over, in the order in which they ended. -/
  terminalRecords : List Text
  retainedTerminalPayloadBytes : ℕ

def RegistryState.initial (ext : OperationExternals) : RegistryState ext :=
  { records := Table.empty
    pendingModuleEvents := Table.empty
    terminalRecords := []
    retainedTerminalPayloadBytes := 0 }

/-- What the clocks show during a call. -/
structure Readings (ext : OperationExternals) where
  /-- The wall clock, when the call begins. -/
  now : ℕ
  /-- The clock that does not go back, when the call begins. -/
  monotonicNow : ℕ
  /-- The wall clock, when events are added. -/
  clock : WallClock ext

section Registry

variable {ext : OperationExternals}

def onRecords {α : Type} : Mutation (Records ext) α → Mutation (RegistryState ext) α :=
  Mutation.zoom (·.records) fun state records => { state with records }

/-! ### Retention -/

def terminalHistoryExpiry (ext : OperationExternals) (now : ℕ) : Except String ℕ :=
  if now + terminalRecordMaxAgeMillis < ext.instantLimit then
    .ok (now + terminalRecordMaxAgeMillis)
  else .error "runtime operation terminal history expiry overflow"

def retainedOperationPayloadBytes (operation : RuntimeOperation ext) : ℕ :=
  (operation.result.map ext.jsonBytes).getD 0 +
    (operation.acknowledgement.map ext.jsonBytes).getD 0 +
    (operation.error.map Text.byteLength).getD 0

/-- The record of an operation whose end has been noted. -/
def RuntimeOperationRecord.tracked (record : RuntimeOperationRecord ext)
    (terminalAt terminalExpiresAt : ℕ) : RuntimeOperationRecord ext :=
  { record with
    terminalAt := some terminalAt
    terminalExpiresAt := some terminalExpiresAt
    restartRequest := none
    retainedTerminalPayloadBytes := retainedOperationPayloadBytes record.operation }

/-- Note that an operation is over, if it is and that has not been noted. -/
def trackNewlyTerminalRecord (operationId : Text) (terminalAt terminalExpiresAt : ℕ)
    (state : RegistryState ext) : RegistryState ext :=
  match state.records.find? operationId with
  | none => state
  | some record =>
    if record.operation.status.isTerminal = false ∨ record.terminalAt.isSome then state
    else
      { state with
        records := state.records.insert (record.tracked terminalAt terminalExpiresAt)
        retainedTerminalPayloadBytes := state.retainedTerminalPayloadBytes +
          retainedOperationPayloadBytes record.operation
        terminalRecords := state.terminalRecords ++ [operationId] }

/-- Take an operation off the candidates of every deferred event. Nothing is changed if one of the
journals that this leaves is too large. -/
def removeOperationFromPendingModuleEvents (journals : Journals) (operationId : Text) :
    Except String Journals := do
  journals.records.forM fun journal => do
    let _ ← (journal.withoutOperation operationId).recalculateRetainedBytes
  pure ((journals.modifyAll (fun journal => (journal.withoutOperation operationId).recounted)
    (PendingModuleEventJournal.recounted_withoutOperation_moduleName operationId)).filter
    fun journal => journal.events ≠ [])

def removeRecord (operationId : Text) : Mutation (RegistryState ext) Unit := do
  let state ← get
  let pendingModuleEvents ← Mutation.ofExcept
    (removeOperationFromPendingModuleEvents state.pendingModuleEvents operationId)
  set
    { state with
      records := state.records.erase operationId
      pendingModuleEvents
      terminalRecords := state.terminalRecords.filter (· ≠ operationId)
      retainedTerminalPayloadBytes := state.retainedTerminalPayloadBytes -
        ((state.records.find? operationId).map
          RuntimeOperationRecord.retainedTerminalPayloadBytes).getD 0 }

/-- Remove the operations that ended first, as long as there are too many. -/
def evictTerminalRecords : ℕ → Mutation (RegistryState ext) Unit
  | 0 => pure ()
  | fuel + 1 => do
    let state ← get
    if maxRetainedTerminalRecords < state.terminalRecords.length then
      match state.terminalRecords with
      | [] => pure ()
      | operationId :: terminalRecords =>
        set { state with terminalRecords }
        removeRecord operationId
      evictTerminalRecords fuel

/-- The record without its acknowledgement, or without its result if it has none. -/
def RuntimeOperationRecord.purged (record : RuntimeOperationRecord ext) :
    RuntimeOperationRecord ext × ℕ :=
  match record.operation.acknowledgement with
  | some acknowledgement =>
    let bytes := ext.jsonBytes acknowledgement
    ({ record with
      operation := { record.operation with acknowledgement := none }
      acknowledgementPurged := true
      retainedTerminalPayloadBytes := record.retainedTerminalPayloadBytes - bytes }, bytes)
  | none =>
    let bytes := (record.operation.result.map ext.jsonBytes).getD 0
    ({ record with
      operation := { record.operation with result := none }
      resultPurged := true
      retainedTerminalPayloadBytes := record.retainedTerminalPayloadBytes - bytes }, bytes)

/-- Purge the payload of the operation that ended first, of those that have one. -/
def purgeOldestTerminalPayload (state : RegistryState ext) : Option (RegistryState ext) := do
  let record ← (state.terminalRecords.filterMap state.records.find?).find? fun record =>
    record.operation.result.isSome || record.operation.acknowledgement.isSome
  let (record, bytes) := record.purged
  pure
    { state with
      records := state.records.insert record
      retainedTerminalPayloadBytes := state.retainedTerminalPayloadBytes - bytes }

/-- Purge payloads as long as there are too many bytes of them. -/
def purgeTerminalPayloads : ℕ → RegistryState ext → RegistryState ext
  | 0, state => state
  | fuel + 1, state =>
    if maxRetainedTerminalPayloadBytes < state.retainedTerminalPayloadBytes then
      match purgeOldestTerminalPayload state with
      | none => { state with retainedTerminalPayloadBytes := 0 }
      | some state => purgeTerminalPayloads fuel state
    else state

/-- Whether the record of an operation that is over has been kept long enough. -/
def RuntimeOperationRecord.expired (record : RuntimeOperationRecord ext)
    (now monotonicNow : ℕ) : Bool :=
  record.terminalAt.any (fun terminalAt => terminalRecordMaxAgeMillis ≤ now - terminalAt) ||
    record.terminalExpiresAt.any (· ≤ monotonicNow)

/-- Forget the operations that are not in the registry, and count the bytes of the others. -/
def RegistryState.recount (state : RegistryState ext) : RegistryState ext :=
  let terminalRecords := state.terminalRecords.filter fun operationId =>
    (state.records.find? operationId).any fun record =>
      record.operation.status.isTerminal && record.terminalAt.isSome
  { state with
    terminalRecords
    retainedTerminalPayloadBytes :=
      ((terminalRecords.filterMap state.records.find?).map (·.retainedTerminalPayloadBytes)).sum }

/-- **The sweep** that every call begins and ends with. -/
def sweepTerminalHistory (now monotonicNow : ℕ) : Mutation (RegistryState ext) Unit := do
  modify RegistryState.recount
  let state ← get
  let expiredOperationIds := state.terminalRecords.filter fun operationId =>
    (state.records.find? operationId).any (·.expired now monotonicNow)
  expiredOperationIds.forM removeRecord
  let state ← get
  evictTerminalRecords state.terminalRecords.length
  -- a record has two payloads
  modify fun state => purgeTerminalPayloads (2 * state.terminalRecords.length + 1) state

/-! ### Early events -/

def checkEventCursorCapacity (cursor : ℕ) : ℕ → Except String Unit
  | 0 => .ok ()
  | required + 1 => do
    let cursor ← checkedNextEventCursor cursor
    checkEventCursorCapacity cursor required

def ensureRecordEventCursorCapacity (record : RuntimeOperationRecord ext)
    (requiredEvents : ℕ) : Except String Unit :=
  checkEventCursorCapacity record.nextEventCursor requiredEvents

/-- Whether every operation of a list can have an event for each time it is listed. -/
def ensureEventCursorCapacity (records : Records ext) (evidence : List Text) : Except String Unit :=
  evidence.dedup.forM fun operationId =>
    match records.find? operationId with
    | none => .ok ()
    | some record => ensureRecordEventCursorCapacity record (evidence.count operationId)

/-- The operations that a deferred event of a module may be for. -/
def pendingModuleEventCandidates (records : Records ext) (moduleName : Text) : List Text :=
  (records.records.filter fun record =>
    !record.operation.status.isTerminal && record.pendingModuleName = some moduleName).map
    (·.operation.operationId)

/-- Add an event to the records of some operations; those without a record are left out, or are
an error. -/
def pushModuleEvent (clock : WallClock ext) (phase : EventPhase) (message : String)
    (missing : Option String) (event : ModuleEventEnvelope) (records : Records ext)
    (operationIds : List Text) : Except String (Records ext) :=
  operationIds.foldlM
    (fun records operationId =>
      match records.find? operationId, missing with
      | none, none => .ok records
      | none, some error => .error error
      | some record, _ => do
        let record ← pushEvent clock record phase message none (some (event.result ext)) event.error
        pure (records.insert record))
    records

/-- **Defer a module event**, to make room for which others may be evicted. -/
def deferModuleEvent (clock : WallClock ext) (event : ModuleEventEnvelope)
    (candidateOperationIds : List Text) (state : RegistryState ext) :
    Except String (RegistryState ext) := do
  let eventBytes ← event.retainedSerializedBytes ext
  let pending : PendingModuleEvent := ⟨event, candidateOperationIds, eventBytes⟩
  reject (maxPendingModuleEventBytes < eventBytes)
    ("runtime module event requires " ++ toString eventBytes ++
      " retained bytes, exceeding the " ++ toString maxPendingModuleEventBytes ++
      "-byte early-event journal limit")
  let journal := (state.pendingModuleEvents.find? event.moduleName).getD (.empty event.moduleName)
  let (events, retainedBytes, evicted) ←
    PendingModuleEventJournal.makeRoom eventBytes journal.events journal.retainedBytes
  ensureEventCursorCapacity state.records
    (candidateOperationIds ++ evicted.flatMap (·.candidateOperationIds))
  let records ← evicted.foldlM
    (fun records evicted => pushModuleEvent clock .moduleEventJournalOverflow
      "oldest deferred module event evicted before correlation registration" none evicted.event
      records evicted.candidateOperationIds)
    state.records
  let records ← pushModuleEvent clock .moduleEventDeferred
    "module event arrived before dispatch correlation registration"
    (some "pending runtime operation disappeared") event records candidateOperationIds
  let journal ← { journal with events, retainedBytes }.pushBack pending
  pure
    { state with
      records
      pendingModuleEvents := state.pendingModuleEvents.insert journal }

def transitionSettlesPendingModule : RuntimeOperationTransition → Bool
  | .resolved _ | .executionFailed _ | .cancellationConfirmed _ | .timedOut _ | .shutdown _
  | .cleanupFailed _ | .taskPanicked _ | .taskAborted _ | .adapterClosed _ => true
  | .started | .progress .. | .cancelRequested | .cancellationUnconfirmed _
  | .cleanupUnconfirmed _ => false

def pendingModuleReplayCount (state : RegistryState ext) (moduleName operationId : Text) : ℕ :=
  ((state.pendingModuleEvents.find? moduleName).map fun journal =>
    journal.events.countP (operationId ∈ ·.candidateOperationIds)).getD 0

/-- Replay deferred events to an operation. Those that were not for it stay, for their other
candidates. -/
def replayEvents (clock : WallClock ext) (operationId : Text) :
    List PendingModuleEvent → PendingModuleEventJournal → Mutation (RegistryState ext) Unit
  | [], retained =>
    modify fun state =>
      if retained.events = [] then state
      else { state with pendingModuleEvents := state.pendingModuleEvents.insert retained }
  | pending :: events, retained =>
    if operationId ∉ pending.candidateOperationIds then do
      let retained ← Mutation.ofExcept (retained.pushBack pending)
      replayEvents clock operationId events retained
    else do
      let state ← get
      match state.records.find? operationId with
      | none => throw "pending runtime operation disappeared during replay"
      | some record =>
        Mutation.handle
          (onRecords (mutateRecord record (applyDeferredModuleEvent clock pending.event)))
          (fun error => do
            let retained ← Mutation.ofExcept
              ((pending :: events).foldlM PendingModuleEventJournal.pushBack retained)
            modify fun state =>
              { state with pendingModuleEvents := state.pendingModuleEvents.insert retained }
            throw error)
          (fun applied =>
            let candidateOperationIds := pending.candidateOperationIds.filter (· ≠ operationId)
            if applied = true ∨ candidateOperationIds = [] then
              replayEvents clock operationId events retained
            else do
              let retained ← Mutation.ofExcept
                (retained.pushBack { pending with candidateOperationIds })
              replayEvents clock operationId events retained)

def replayPendingModuleEvents (clock : WallClock ext) (moduleName operationId : Text) :
    Mutation (RegistryState ext) Unit := do
  let state ← get
  Mutation.ofExcept ((state.records.find? operationId).forM fun record =>
    ensureRecordEventCursorCapacity record (pendingModuleReplayCount state moduleName operationId))
  match state.pendingModuleEvents.find? moduleName with
  | none => pure ()
  | some journal =>
    modify fun state =>
      { state with pendingModuleEvents := state.pendingModuleEvents.erase moduleName }
    let _ ← Mutation.ofExcept (required (state.records.find? operationId)
      "pending runtime operation disappeared during replay")
    replayEvents clock operationId journal.events (.empty moduleName)

/-! ### The calls of the registry -/

/-- The record of an operation that begins. -/
def runningRuntimeOperationRecord (operationId : Text) (request : RuntimeOperationRequest ext)
    (now : ℕ) : RuntimeOperationRecord ext :=
  { operation :=
      { operationId
        clientRequestId := request.clientRequestId
        bridgeCallbackId := none
        moduleSessionId := none
        moduleRequestId := none
        terminalEvent := none
        eventCursor := 0
        domain := request.domainName
        method := request.methodName
        status := .running
        acknowledgement := none
        progress := none
        bytesWritten := 0
        contentLength := none
        result := none
        error := none
        terminalReason := none
        cancellable := request.cancellable
        exclusiveGroup := request.exclusiveGroup
        updatedAt := now }
    restartRequest := some request
    events := []
    pendingModuleName := request.pendingModule
    nextEventCursor := 1
    retainedEventBytes := 0
    droppedEventCount := 0
    coalescedEventCount := 0
    historyTruncated := false
    terminalAt := none
    terminalExpiresAt := none
    retainedTerminalPayloadBytes := 0
    resultPurged := false
    acknowledgementPurged := false
    errorRedactedBytes := 0 }

def activeOperationInExclusiveGroup (record : RuntimeOperationRecord ext)
    (group : OperationExclusiveGroup) : Bool :=
  record.operation.exclusiveGroup = some group && !record.operation.status.isTerminal

def exclusiveOperationMessage : OperationExclusiveGroup → String
  | .download => "a storage download operation is already running"
  | .remove => "a storage remove operation is already running"
  | .upload => "a storage upload operation is already running"

/-- Put a record into the registry. -/
def insert (readings : Readings ext) (record : RuntimeOperationRecord ext) :
    Mutation (RegistryState ext) Unit := do
  let terminalExpiresAt ← Mutation.ofExcept (terminalHistoryExpiry ext readings.monotonicNow)
  sweepTerminalHistory readings.now readings.monotonicNow
  let state ← get
  let operationId := record.operation.operationId
  Mutation.ofExcept (reject (state.records.contains operationId)
    ("runtime operation \x60" ++ operationId.toMessage ++ "\x60 already exists"))
  Mutation.ofExcept (record.operation.exclusiveGroup.forM fun group =>
    reject (state.records.records.any (activeOperationInExclusiveGroup · group))
      (exclusiveOperationMessage group))
  modify fun state => { state with records := state.records.insert record }
  modify (trackNewlyTerminalRecord operationId readings.now terminalExpiresAt)
  sweepTerminalHistory readings.now readings.monotonicNow

/-- **A transition of an operation**, with the events that were deferred for it. -/
def transition (readings : Readings ext) (operationId : Text)
    (transition : RuntimeOperationTransition) :
    Mutation (RegistryState ext) TransitionDisposition := do
  let terminalExpiresAt ← Mutation.ofExcept (terminalHistoryExpiry ext readings.monotonicNow)
  sweepTerminalHistory readings.now readings.monotonicNow
  let state ← get
  match state.records.find? operationId with
  | none => onRecords (applyRuntimeOperationTransition readings.clock operationId transition)
  | some record =>
    -- the module whose journal is replayed
    let replayed :=
      if record.operation.status.isTerminal = false ∧ transitionSettlesPendingModule transition then
        record.pendingModuleName
      else none
    Mutation.ofExcept (ensureRecordEventCursorCapacity record
      ((replayed.map (pendingModuleReplayCount state · operationId)).getD 0 + 1))
    let disposition ← Mutation.onError (do
        let disposition ← onRecords
          (applyRuntimeOperationTransition readings.clock operationId transition)
        replayed.forM (replayPendingModuleEvents readings.clock · operationId)
        pure disposition)
      (fun failed =>
        match replayed with
        | none => failed
        | some moduleName =>
          { failed with
            records := failed.records.insert record
            pendingModuleEvents :=
              match state.pendingModuleEvents.find? moduleName with
              | some journal => failed.pendingModuleEvents.insert journal
              | none => failed.pendingModuleEvents.erase moduleName })
    modify (trackNewlyTerminalRecord operationId readings.now terminalExpiresAt)
    sweepTerminalHistory readings.now readings.monotonicNow
    pure disposition

/-- Defer an event that no operation has claimed, if some operation may yet claim it. -/
def deferUnclaimed (clock : WallClock ext) (event : ModuleEventEnvelope)
    (result : ModuleEventIngressResult) :
    Mutation (RegistryState ext) ModuleEventIngressResult := do
  let state ← get
  let candidates := pendingModuleEventCandidates state.records event.moduleName
  match result with
  | .unknown | .uncorrelated _ =>
    if candidates = [] then pure result
    else
      Mutation.attempt (deferModuleEvent clock event candidates)
      pure (.deferred candidates)
  | result => pure result

/-- **A module event arrives.** What became of it is returned, with the operation that it has
ended. -/
def ingestModuleEventWithSettlement (readings : Readings ext) (event : ModuleEventEnvelope) :
    Mutation (RegistryState ext) (ModuleEventIngressResult × Option Text) := do
  let terminalExpiresAt ← Mutation.ofExcept (terminalHistoryExpiry ext readings.monotonicNow)
  sweepTerminalHistory readings.now readings.monotonicNow
  let result ← onRecords (applyModuleEventIngress readings.clock event)
  let result ← deferUnclaimed readings.clock event result
  result.operationId.forM fun operationId =>
    modify (trackNewlyTerminalRecord operationId readings.now terminalExpiresAt)
  let state ← get
  let settledOperationId := result.operationId.filter fun operationId =>
    (state.records.find? operationId).any (·.operation.status.isTerminal)
  sweepTerminalHistory readings.now readings.monotonicNow
  pure (result, settledOperationId)

/-- Look at the records. Whatever is looked up, the registry is swept first. -/
def inspect (readings : Readings ext) : Mutation (RegistryState ext) (Records ext) := do
  sweepTerminalHistory readings.now readings.monotonicNow
  let state ← get
  pure state.records

/-- Remove a record. -/
def remove (operationId : Text) : Mutation (RegistryState ext) Unit := removeRecord operationId

/-! ### Runs -/

/-- A call of the registry. -/
inductive RegistryCall (ext : OperationExternals)
  | insert (operationId : Text) (request : RuntimeOperationRequest ext) (now : ℕ)
  | transition (operationId : Text) (transition : RuntimeOperationTransition)
  | ingestModuleEvent (event : ModuleEventEnvelope)
  | inspect
  | remove (operationId : Text)

/-- Make a call. What it answers is left out. -/
def RegistryCall.perform (readings : Readings ext) :
    RegistryCall ext → Mutation (RegistryState ext) Unit
  | .insert operationId request now =>
    Operations.insert readings (runningRuntimeOperationRecord operationId request now)
  | .transition operationId change => do
    let _ ← Operations.transition readings operationId change
  | .ingestModuleEvent event => do
    let _ ← ingestModuleEventWithSettlement readings event
  | .inspect => do
    let _ ← Operations.inspect readings
  | .remove operationId => Operations.remove operationId

/-- What a sequence of calls leaves, each at its own time. A call that fails is not the last. -/
def RegistryState.run (state : RegistryState ext) (calls : List (Readings ext × RegistryCall ext)) :
    RegistryState ext :=
  calls.foldl (fun state call => Mutation.left (call.2.perform call.1 state)) state

end Registry

/-! ### A sample -/

mutual

/-- The length of the compact text of a value that has nothing to escape. -/
def writtenBytes : Json → ℕ
  | .null => 4
  | .bool value => if value then 4 else 5
  | .number value => value.toText.length
  | .string value => value.byteLength + 2
  | .array values => elementsBytes values + 2
  | .object fields => fieldsBytes fields + 2

def elementsBytes : List Json → ℕ
  | [] => 0
  | [value] => writtenBytes value
  | value :: values => writtenBytes value + 1 + elementsBytes values

def fieldsBytes : List (Text × Json) → ℕ
  | [] => 0
  | [(name, value)] => name.byteLength + 3 + writtenBytes value
  | (name, value) :: fields => name.byteLength + 4 + writtenBytes value + fieldsBytes fields

end

/-- Numbers for floating-point numbers, and no JSON in texts. -/
def sampleExternals : OperationExternals where
  parseJson := fun _ => none
  jsonBytes := writtenBytes
  F64 := ℕ
  zero := 0
  one := 1
  max := max
  ratio := fun a b => a / b
  near := fun a b => a = b
  toJson := natJson
  instantLimit := 2 ^ 64
  Request := Unit

/-- Everything happens at one time. -/
def sampleReadings : Readings sampleExternals := ⟨1000, 1000, fun _ => 1000⟩

/-- An upload by the storage module. -/
def sampleRequest : RuntimeOperationRequest sampleExternals where
  clientRequestId := none
  domainName := "storage".toList
  methodName := "storageUploadUrl".toList
  cancellable := false
  exclusiveGroup := some .upload
  pendingModule := some "storage_module".toList
  body := ()

def sampleAcceptance : ObservableOperationAcceptance where
  acknowledgement := .bool true
  correlation := ⟨none, some "session-1".toList, none⟩
  terminalEvent :=
    { module := "storage_module".toList
      progressEvent := some "storageUploadProgress".toList
      successEvent := "storageUploadDone".toList
      successEventAlias := none
      failureEvent := none
      correlation := .session }

/-- An event of the storage module about the session. -/
def sampleEvent (eventName : String) (bytes : UInt64) : ModuleEventEnvelope :=
  let payload := Json.object [("sessionId".toList, .string "session-1".toList),
    ("bytes".toList, .number (.posInt bytes))]
  ⟨"storage_module".toList, eventName.toList, [payload], payload⟩

end LogosInspector.Operations
