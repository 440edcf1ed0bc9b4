import LogosInspector.Result
import LogosInspector.SourceRouting.Operation

/-!
# The record of an operation

A long-running operation of the inspector has a record: its status, what it has transferred, its
result or its error, and a bounded history of events. This file has the record and the one way
in which events enter the history, `pushEvent`.

The history holds at most `256` events and `256` KiB. Progress that follows progress closely is
coalesced with it. Once a record is terminal and its history has the event that says so, further
evidence is only counted, so that the terminal event stays the last one.

Adding an event changes the history of a record and nothing else: the rest, its `essence`, stays.
The history loses events only at its front, and never the one that was just added, since no event
is larger than the history may be. This gives the three facts that the rest of the development
uses: what an event that ends the history does to a record (`pushEvent_terminal`), what another
event does to a record whose history has not ended (`pushEvent_open`), and what it does to one
whose history has ended (`pushEvent_stale`).
-/

namespace LogosInspector.Operations

def maxRetainedEvents : ℕ := 256

def maxRetainedEventBytes : ℕ := 256 * 1024

def maxInlineEventPayloadBytes : ℕ := 16 * 1024

/-- The greatest cursor that JavaScript represents exactly. -/
def maxWireEventCursor : ℕ := 9007199254740991

/-! ### Records -/

inductive OperationStatus
  /-- It is being executed. -/
  | running
  /-- A module has accepted it, and will report. -/
  | awaitingExternal
  /-- It was asked to stop. -/
  | canceling
  /-- It has a result. -/
  | completed
  /-- It was handed over, and nothing will be reported. -/
  | dispatched
  /-- It has failed. -/
  | failed
  /-- It was stopped. -/
  | canceled
  /-- It took too long. -/
  | timedOut
  deriving DecidableEq

def OperationStatus.isTerminal : OperationStatus → Bool
  | .completed | .dispatched | .failed | .canceled | .timedOut => true
  | .running | .awaitingExternal | .canceling => false

/-- Why an operation is over. -/
inductive TerminalReason
  | completed
  | completionUnobservable
  | executionFailed
  | canceled
  | timeout
  | shutdown
  | cleanupFailed
  | taskPanicked
  | taskAborted
  | adapterClosed
  | invalidExternalCorrelation
  | externalFailure
  | externalCompletion
  deriving DecidableEq

/-- Operations of one group exclude each other. -/
inductive OperationExclusiveGroup
  /-- A storage download. -/
  | download
  /-- A storage removal. -/
  | remove
  /-- A storage upload. -/
  | upload
  deriving DecidableEq

/-- What an event is about. -/
inductive EventPhase
  | started
  | progress
  | accepted
  | completed
  | dispatched
  | failed
  | canceled
  | timedOut
  | externalProgress
  | externalCompletion
  | externalFailure
  | canceling
  | cancelIgnored
  | cancelDuplicate
  | cancellationUnconfirmed
  | cleanupUnconfirmed
  | staleTransition
  | staleModuleEvent
  | deferredModuleEventIgnored
  | deferredModuleEventUncorrelated
  | moduleEventJournalOverflow
  | moduleEventDeferred
  deriving DecidableEq

def EventPhase.asStr : EventPhase → String
  | .started => "started"
  | .progress => "progress"
  | .accepted => "accepted"
  | .completed => "completed"
  | .dispatched => "dispatched"
  | .failed => "failed"
  | .canceled => "canceled"
  | .timedOut => "timed_out"
  | .externalProgress => "external_progress"
  | .externalCompletion => "external_completion"
  | .externalFailure => "external_failure"
  | .canceling => "canceling"
  | .cancelIgnored => "cancel_ignored"
  | .cancelDuplicate => "cancel_duplicate"
  | .cancellationUnconfirmed => "cancellation_unconfirmed"
  | .cleanupUnconfirmed => "cleanup_unconfirmed"
  | .staleTransition => "stale_transition"
  | .staleModuleEvent => "stale_module_event"
  | .deferredModuleEventIgnored => "deferred_module_event_ignored"
  | .deferredModuleEventUncorrelated => "deferred_module_event_uncorrelated"
  | .moduleEventJournalOverflow => "module_event_journal_overflow"
  | .moduleEventDeferred => "module_event_deferred"

/-- How events are kept. -/
inductive EventClass
  /-- It may be coalesced with other progress. -/
  | progress
  /-- It ends the history. -/
  | terminal
  /-- It is not kept once the history has ended. -/
  | evidence
  deriving DecidableEq

def EventPhase.eventClass : EventPhase → EventClass
  | .progress | .externalProgress => .progress
  | .completed | .externalCompletion | .externalFailure | .dispatched | .failed | .canceled
  | .timedOut => .terminal
  | _ => .evidence

/-- Where the payload of an event is kept in full. -/
def EventPhase.payloadLocation : EventPhase → Option String
  | .accepted | .dispatched => some "operation.acknowledgement"
  | .completed | .externalCompletion => some "operation.result"
  | .failed | .externalFailure | .canceled | .timedOut => some "operation.error"
  | _ => none

/-- What the registry knows of a request. -/
structure RuntimeOperationRequest (ext : OperationExternals) where
  clientRequestId : Option Text
  domainName : Text
  methodName : Text
  cancellable : Bool
  exclusiveGroup : Option OperationExclusiveGroup
  /-- The module that may report on the request before it has accepted it. -/
  pendingModule : Option Text
  /-- The rest, which is only kept. -/
  body : ext.Request

structure RuntimeOperation (ext : OperationExternals) where
  operationId : Text
  clientRequestId : Option Text
  bridgeCallbackId : Option ℕ
  moduleSessionId : Option Text
  moduleRequestId : Option Text
  terminalEvent : Option ModuleTerminalEventContract
  eventCursor : ℕ
  domain : Text
  method : Text
  status : OperationStatus
  acknowledgement : Option Json
  progress : Option ext.F64
  bytesWritten : ℕ
  contentLength : Option ℕ
  result : Option Json
  error : Option Text
  terminalReason : Option TerminalReason
  cancellable : Bool
  exclusiveGroup : Option OperationExclusiveGroup
  updatedAt : ℕ

structure RuntimeOperationEvent (ext : OperationExternals) where
  cursor : ℕ
  operationId : Text
  clientRequestId : Option Text
  bridgeCallbackId : Option ℕ
  moduleSessionId : Option Text
  moduleRequestId : Option Text
  domain : Text
  method : Text
  phase : EventPhase
  message : String
  progress : Option ext.F64
  result : Option Json
  error : Option Text
  timestamp : ℕ
  redactedPayloadBytes : ℕ
  serializedBytes : ℕ

structure RuntimeOperationRecord (ext : OperationExternals) where
  operation : RuntimeOperation ext
  restartRequest : Option (RuntimeOperationRequest ext)
  events : List (RuntimeOperationEvent ext)
  pendingModuleName : Option Text
  nextEventCursor : ℕ
  retainedEventBytes : ℕ
  droppedEventCount : ℕ
  coalescedEventCount : ℕ
  historyTruncated : Bool
  terminalAt : Option ℕ
  terminalExpiresAt : Option ℕ
  retainedTerminalPayloadBytes : ℕ
  resultPurged : Bool
  acknowledgementPurged : Bool
  errorRedactedBytes : ℕ

section Push

variable {ext : OperationExternals}

/-! ### The size of an event -/

def optionalText (value : Option Text) : Json := (value.map Json.string).getD .null

def natJson (value : ℕ) : Json := .number (.posInt (UInt64.ofNat value))

/-- An event as it is sent. -/
def runtimeOperationEventValue (event : RuntimeOperationEvent ext) : Json :=
  .object [("seq".toList, natJson event.cursor), ("eventCursor".toList, natJson event.cursor),
    ("operationId".toList, .string event.operationId),
    ("clientRequestId".toList, optionalText event.clientRequestId),
    ("bridgeCallbackId".toList, (event.bridgeCallbackId.map natJson).getD .null),
    ("moduleSessionId".toList, optionalText event.moduleSessionId),
    ("moduleRequestId".toList, optionalText event.moduleRequestId),
    ("externalCorrelation".toList, .null),
    ("externalSessionId".toList, optionalText event.moduleSessionId),
    ("requestId".toList, optionalText event.moduleRequestId),
    ("domain".toList, .string event.domain), ("method".toList, .string event.method),
    ("phase".toList, .string event.phase.asStr.toList),
    ("message".toList, .string event.message.toList),
    ("payloadLocation".toList, optionalText (event.phase.payloadLocation.map String.toList)),
    ("progress".toList, (event.progress.map ext.toJson).getD .null),
    ("result".toList, event.result.getD .null), ("error".toList, optionalText event.error),
    ("timestamp".toList, natJson event.timestamp),
    ("payloadRedacted".toList, .bool (0 < event.redactedPayloadBytes)),
    ("redactedPayloadBytes".toList, natJson event.redactedPayloadBytes)]

def serializedEventBytes (event : RuntimeOperationEvent ext) : ℕ :=
  ext.jsonBytes (runtimeOperationEventValue event)

/-- What stands for a payload that is too large to be kept. -/
def redactedPayload (reason : String) (originalBytes limitBytes : ℕ) (location : String) : Json :=
  .object [("redacted".toList, .bool true), ("reason".toList, .string reason.toList),
    ("originalBytes".toList, natJson originalBytes), ("limitBytes".toList, natJson limitBytes),
    ("payloadLocation".toList, .string location.toList)]

/-- The event without what makes it too large. -/
def RuntimeOperationEvent.redacted (event : RuntimeOperationEvent ext) (originalBytes : ℕ) :
    RuntimeOperationEvent ext :=
  { event with
    clientRequestId := none
    bridgeCallbackId := none
    moduleSessionId := none
    moduleRequestId := none
    result := some (redactedPayload "event_metadata_limit" originalBytes maxRetainedEventBytes
      (event.phase.payloadLocation.getD "event.metadata"))
    error := none
    redactedPayloadBytes := event.redactedPayloadBytes + originalBytes }

/-- The event with its size, redacted if it would not fit. -/
def finalizeEventSize (event : RuntimeOperationEvent ext) :
    Except String (RuntimeOperationEvent ext) :=
  let bytes := serializedEventBytes event
  if bytes ≤ maxRetainedEventBytes then .ok { event with serializedBytes := bytes }
  else
    let smaller := event.redacted bytes
    let bytes := serializedEventBytes smaller
    if maxRetainedEventBytes < bytes then
      .error "runtime operation event metadata exceeds retained byte limit"
    else .ok { smaller with serializedBytes := bytes }

def boundedInlineEventResult (ext : OperationExternals) (result : Option Json)
    (location : String) : Option Json × ℕ :=
  match result with
  | none => (none, 0)
  | some result =>
    let bytes := ext.jsonBytes result
    if bytes ≤ maxInlineEventPayloadBytes then (some result, 0)
    else (some (redactedPayload "inline_payload_limit" bytes maxInlineEventPayloadBytes location),
      bytes)

/-- A text that is kept in full only up to a limit. -/
def boundedText (what limit : String) (error : Option Text) : Option Text × ℕ :=
  match error with
  | none => (none, 0)
  | some error =>
    let bytes := error.byteLength
    if bytes ≤ maxInlineEventPayloadBytes then (some error, 0)
    else (some (what ++ " redacted: " ++ toString bytes ++ " bytes exceeded " ++
      toString maxInlineEventPayloadBytes ++ "-byte " ++ limit ++ " limit").toList, bytes)

def boundedInlineEventError : Option Text → Option Text × ℕ :=
  boundedText "runtime operation evidence" "inline"

def boundedTerminalOperationError : Option Text → Option Text × ℕ :=
  boundedText "runtime operation error" "retained"

/-! ### Adding an event -/

def checkedNextEventCursor (cursor : ℕ) : Except String ℕ := do
  reject (2 ^ 64 ≤ cursor + 1) "runtime operation event cursor is exhausted"
  reject (maxWireEventCursor < cursor + 1)
    "runtime operation event cursor exceeds JavaScript safe integer range"
  pure (cursor + 1)

def incrementWireCounter (value : ℕ) : ℕ := min (min (value + 1) (2 ^ 64 - 1)) maxWireEventCursor

/-- Whether progress is so close to the event before that it is not kept. -/
def shouldCoalesceProgress (previous : RuntimeOperationEvent ext) (progress : Option ext.F64)
    (timestamp : ℕ) : Bool :=
  previous.phase.eventClass = .progress && timestamp - previous.timestamp < 250 &&
    match previous.progress, progress with
    | some previous, some current => ext.near previous current
    | none, none => true
    | _, _ => false

/-- Drop the oldest events until the rest fits. -/
def enforceRetention (bytes dropped : ℕ) (truncated : Bool) :
    List (RuntimeOperationEvent ext) → List (RuntimeOperationEvent ext) × ℕ × ℕ × Bool
  | [] => ([], bytes, dropped, truncated)
  | event :: rest =>
    if maxRetainedEvents < (event :: rest).length ∨ maxRetainedEventBytes < bytes then
      enforceRetention (bytes - event.serializedBytes) (incrementWireCounter dropped) true rest
    else (event :: rest, bytes, dropped, truncated)

def enforceEventRetention (record : RuntimeOperationRecord ext) : RuntimeOperationRecord ext :=
  let (events, bytes, dropped, truncated) := enforceRetention record.retainedEventBytes
    record.droppedEventCount record.historyTruncated record.events
  { record with
    events := events
    retainedEventBytes := bytes
    droppedEventCount := dropped
    historyTruncated := truncated }

/-- Progress does not go back. -/
def RuntimeOperation.advance (operation : RuntimeOperation ext) (progress : Option ext.F64) :
    Option ext.F64 :=
  progress.map fun candidate => (operation.progress.map (ext.max · candidate)).getD candidate

/-- The event that is added. -/
def nextEvent (record : RuntimeOperationRecord ext) (timestamp : ℕ) (phase : EventPhase)
    (message : String) (progress : Option ext.F64) (result : Option Json) (error : Option Text) :
    RuntimeOperationEvent ext :=
  let (result, resultBytes) := boundedInlineEventResult ext result
    (phase.payloadLocation.getD "event.result")
  let (error, errorBytes) := boundedInlineEventError error
  { cursor := record.nextEventCursor
    operationId := record.operation.operationId
    clientRequestId := record.operation.clientRequestId
    bridgeCallbackId := record.operation.bridgeCallbackId
    moduleSessionId := record.operation.moduleSessionId
    moduleRequestId := record.operation.moduleRequestId
    domain := record.operation.domain
    method := record.operation.method
    phase
    message
    progress
    result
    error
    timestamp
    redactedPayloadBytes := resultBytes + errorBytes
    serializedBytes := 0 }

/-- The record with one more event, in so far as that is kept. -/
def RuntimeOperationRecord.append (record : RuntimeOperationRecord ext)
    (event : RuntimeOperationEvent ext) : RuntimeOperationRecord ext :=
  enforceEventRetention
    { record with
      operation :=
        { record.operation with
          progress := event.progress.or record.operation.progress
          updatedAt := event.timestamp
          eventCursor := event.cursor }
      events := record.events ++ [event]
      nextEventCursor := event.cursor + 1
      retainedEventBytes := record.retainedEventBytes + event.serializedBytes
      historyTruncated := record.historyTruncated || 0 < event.redactedPayloadBytes }

/-- What the wall clock shows when an event is added to a record. It is read again for every
event, and need not go forward. -/
abbrev WallClock (ext : OperationExternals) := RuntimeOperationRecord ext → ℕ

/-- **Add an event to the history.** -/
def pushEvent (clock : WallClock ext) (record : RuntimeOperationRecord ext) (phase : EventPhase)
    (message : String) (progress : Option ext.F64) (result : Option Json) (error : Option Text) :
    Except String (RuntimeOperationRecord ext) :=
  let timestamp := max (clock record) record.operation.updatedAt
  let progress := record.operation.advance progress
  if phase.eventClass = .evidence ∧ record.operation.status.isTerminal = true ∧
      record.events.any (fun event => event.phase.eventClass = .terminal) = true then
    -- the history has ended
    .ok { record with
      operation := { record.operation with updatedAt := timestamp }
      droppedEventCount := incrementWireCounter record.droppedEventCount
      historyTruncated := true }
  else if phase.eventClass = .progress ∧
      record.events.getLast?.any (shouldCoalesceProgress · progress timestamp) = true then
    .ok { record with
      operation :=
        { record.operation with
          progress := progress.or record.operation.progress
          updatedAt := timestamp }
      coalescedEventCount := incrementWireCounter record.coalescedEventCount
      historyTruncated := true }
  else do
    let _ ← checkedNextEventCursor record.nextEventCursor
    let event ← finalizeEventSize (nextEvent record timestamp phase message progress result error)
    pure (record.append event)

end Push

section History

open List

variable {ext : OperationExternals}

/-- A record without its history. -/
def RuntimeOperationRecord.essence (record : RuntimeOperationRecord ext) :
    RuntimeOperationRecord ext :=
  { record with
    operation := { record.operation with eventCursor := 0, progress := none, updatedAt := 0 }
    events := []
    nextEventCursor := 0
    retainedEventBytes := 0
    droppedEventCount := 0
    coalescedEventCount := 0
    historyTruncated := false }

/-- The history is within its limits: its bytes are counted, and no event alone exceeds theirs. -/
structure Accounted (record : RuntimeOperationRecord ext) : Prop where
  bytes : record.retainedEventBytes = (record.events.map (·.serializedBytes)).sum
  fits : ∀ event ∈ record.events, event.serializedBytes ≤ maxRetainedEventBytes
  count : record.events.length ≤ maxRetainedEvents
  limit : record.retainedEventBytes ≤ maxRetainedEventBytes

/-- Records with the same history. -/
structure SameHistory (record record' : RuntimeOperationRecord ext) : Prop where
  events : record'.events = record.events
  bytes : record'.retainedEventBytes = record.retainedEventBytes
  next : record'.nextEventCursor = record.nextEventCursor

variable {r r' : RuntimeOperationRecord ext} {events : List (RuntimeOperationEvent ext)}
  {event : RuntimeOperationEvent ext}

theorem Accounted.same (h : Accounted r) (hs : SameHistory r r') : Accounted r' where
  bytes := by rw [hs.events, hs.bytes, h.bytes]
  fits := hs.events ▸ h.fits
  count := hs.events ▸ h.count
  limit := hs.bytes ▸ h.limit

/-- No event ends the history. -/
def Open (events : List (RuntimeOperationEvent ext)) : Prop :=
  ∀ event ∈ events, event.phase.eventClass ≠ .terminal

/-- The last event ends the history, and no other does. -/
def Closed (events : List (RuntimeOperationEvent ext)) : Prop :=
  ∃ front last, events = front ++ [last] ∧ last.phase.eventClass = .terminal ∧ Open front

theorem Open.suffix {front : List (RuntimeOperationEvent ext)} (h : Open events)
    (hs : front <:+ events) : Open front := fun event he => h event (hs.subset he)

/-! ### Retention -/

theorem enforceRetention_spec (bytes dropped : ℕ) (truncated : Bool)
    (hb : bytes = (events.map (·.serializedBytes)).sum)
    (hfits : ∀ event ∈ events, event.serializedBytes ≤ maxRetainedEventBytes) :
    let kept := enforceRetention bytes dropped truncated events
    kept.1 <:+ events ∧ (events ≠ [] → kept.1 ≠ []) ∧
      kept.2.1 = (kept.1.map (·.serializedBytes)).sum ∧
      kept.1.length ≤ maxRetainedEvents ∧ kept.2.1 ≤ maxRetainedEventBytes := by
  induction events generalizing bytes dropped truncated with
  | nil => exact ⟨suffix_refl _, id, hb, Nat.zero_le _, hb ▸ Nat.zero_le _⟩
  | cons event rest ih =>
    have hrest : bytes - event.serializedBytes = (rest.map (·.serializedBytes)).sum := by
      rw [hb, map_cons, sum_cons, Nat.add_sub_cancel_left]
    simp only [enforceRetention]
    split_ifs with hover
    · obtain ⟨hs, hne, hkept⟩ := ih _ (incrementWireCounter dropped) true hrest
        fun e he => hfits e (mem_cons_of_mem _ he)
      refine ⟨hs.trans (suffix_cons _ _), fun _ => hne ?_, hkept⟩
      -- one event alone is within both limits
      rintro rfl
      have := hfits event mem_cons_self
      simp only [map_cons, map_nil, sum_cons, sum_nil] at hb
      rcases hover with hlen | hover
      · exact absurd hlen (by simp [maxRetainedEvents])
      · omega
    · rw [not_or, not_lt, not_lt] at hover
      exact ⟨suffix_refl _, fun h => h, hb, hover⟩

/-- An event that is added is kept, and older ones are dropped first. -/
theorem append_events (h : Accounted r) (he : event.serializedBytes ≤ maxRetainedEventBytes) :
    Accounted (r.append event) ∧
      ∃ front, (r.append event).events = front ++ [event] ∧ front <:+ r.events := by
  have hfits : ∀ e ∈ r.events ++ [event], e.serializedBytes ≤ maxRetainedEventBytes := by
    intro e hm
    rcases mem_append.1 hm with hm | hm
    · exact h.fits e hm
    · rwa [mem_singleton.1 hm]
  obtain ⟨hs, hne, hsum, hcnt, hlimit⟩ := enforceRetention_spec
    (r.retainedEventBytes + event.serializedBytes) r.droppedEventCount
    (r.historyTruncated || decide (0 < event.redactedPayloadBytes)) (by simp [h.bytes]) hfits
  refine ⟨⟨hsum, fun e hm => hfits e (hs.subset hm), hcnt, hlimit⟩, ?_⟩
  obtain ⟨rest, hrest⟩ := hs
  rcases eq_nil_or_concat (r.append event).events with hnil | ⟨front, _, hlast⟩
  · exact absurd hnil (hne (by simp))
  · rw [concat_eq_append] at hlast
    change rest ++ (r.append event).events = r.events ++ [event] at hrest
    rw [hlast, ← append_assoc] at hrest
    obtain ⟨hfront, hevent⟩ := append_inj' hrest rfl
    cases hevent
    exact ⟨front, hlast, rest, hfront⟩

/-! ### Adding an event -/

theorem finalizeEventSize_eq_ok {event' : RuntimeOperationEvent ext}
    (h : finalizeEventSize event = .ok event') :
    event'.phase = event.phase ∧ event'.cursor = event.cursor ∧
      event'.serializedBytes ≤ maxRetainedEventBytes := by
  simp only [finalizeEventSize] at h
  split_ifs at h with hfits hlarge
  · cases h
    exact ⟨rfl, rfl, hfits⟩
  · cases h
    exact ⟨rfl, rfl, not_lt.1 hlarge⟩

/-- An event that can be added next. -/
structure RuntimeOperationRecord.Fits (record : RuntimeOperationRecord ext)
    (event : RuntimeOperationEvent ext) : Prop where
  cursor : event.cursor = record.nextEventCursor
  wire : record.nextEventCursor + 1 ≤ maxWireEventCursor
  bytes : event.serializedBytes ≤ maxRetainedEventBytes

/-- **What adding an event can do**: the event is only counted, because the history has ended or
because it is progress like the event before; or it is appended. -/
theorem pushEvent_cases {clock : WallClock ext}
    {phase : EventPhase} {message : String} {progress : Option ext.F64} {result : Option Json}
    {error : Option Text}
    (h : pushEvent clock r phase message progress result error = .ok r') :
    (phase.eventClass ≠ .terminal ∧ SameHistory r r' ∧ r'.essence = r.essence) ∨
    ∃ event, event.phase = phase ∧ r.Fits event ∧ r' = r.append event ∧
      ¬ (phase.eventClass = .evidence ∧ r.operation.status.isTerminal = true ∧
        r.events.any (fun event => event.phase.eventClass = .terminal) = true) := by
  unfold pushEvent at h
  simp only at h
  split_ifs at h with hend hc
  · cases h
    exact .inl ⟨by simp [hend.1], ⟨rfl, rfl, rfl⟩, rfl⟩
  · cases h
    exact .inl ⟨by simp [hc.1], ⟨rfl, rfl, rfl⟩, rfl⟩
  · simp only [bind_eq_ok, pure_eq_ok, checkedNextEventCursor, reject_eq_ok, exists_unit] at h
    obtain ⟨_, ⟨-, hwire, -⟩, event, hsize, rfl⟩ := h
    obtain ⟨hphase, hcur, hbytes⟩ := finalizeEventSize_eq_ok hsize
    exact .inr ⟨event, hphase, ⟨hcur, not_lt.1 hwire, hbytes⟩, rfl, hend⟩

section Pushed

variable {clock : WallClock ext} {r r' : RuntimeOperationRecord ext}
  {phase : EventPhase} {message : String} {progress : Option ext.F64} {result : Option Json}
  {error : Option Text}

variable (h : pushEvent clock r phase message progress result error = .ok r')

include h

/-- Adding an event changes only the history. -/
theorem pushEvent_essence : r'.essence = r.essence := by
  rcases pushEvent_cases h with ⟨-, -, he⟩ | ⟨_, -, -, rfl, -⟩
  · exact he
  · rfl

/-- An event that ends the history is its last, and the only such. -/
theorem pushEvent_terminal (hacc : Accounted r) (hopen : Open r.events)
    (hphase : phase.eventClass = .terminal) : Accounted r' ∧ Closed r'.events := by
  rcases pushEvent_cases h with ⟨hno, -⟩ | ⟨event, rfl, hfits, rfl, -⟩
  · exact absurd hphase hno
  · obtain ⟨haccounted', front, hevs, hfront⟩ := append_events hacc hfits.bytes
    exact ⟨haccounted', front, event, hevs, hphase, hopen.suffix hfront⟩

/-- Another event leaves the history open. -/
theorem pushEvent_open (hacc : Accounted r) (hopen : Open r.events)
    (hphase : phase.eventClass ≠ .terminal) : Accounted r' ∧ Open r'.events := by
  rcases pushEvent_cases h with ⟨-, hs, -⟩ | ⟨_, rfl, hfits, rfl, -⟩
  · exact ⟨hacc.same hs, hs.events ▸ hopen⟩
  · obtain ⟨haccounted', _, hevs, hfront⟩ := append_events hacc hfits.bytes
    refine ⟨haccounted', fun e he => ?_⟩
    rw [hevs] at he
    rcases mem_append.1 he with he | he
    · exact hopen.suffix hfront e he
    · rwa [mem_singleton.1 he]

/-- **Once the history has ended, evidence does not change it.** -/
theorem pushEvent_stale (ht : r.operation.status.isTerminal = true) (hc : Closed r.events)
    (hphase : phase.eventClass = .evidence) : SameHistory r r' := by
  rcases pushEvent_cases h with ⟨-, hs, -⟩ | ⟨_, -, -, -, hend⟩
  · exact hs
  · obtain ⟨_, _, hevs, hlast, -⟩ := hc
    refine absurd ⟨hphase, ht, ?_⟩ hend
    rw [hevs]
    simp [hlast]

end Pushed

end History

end LogosInspector.Operations
