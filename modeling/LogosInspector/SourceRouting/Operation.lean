import LogosInspector.Json

/-!
# Module events and what they are correlated with

A node module acknowledges a request at once and reports its outcome later, by an *event*: a
module name, an event name and arguments. The acknowledgement comes with a contract – which
events of the module report progress, success and failure – and with a correlation, an id by
which the events of this request are told from those of another.

What is said here is how an event is read: its correlation, its result, its error and its
progress are looked up in its first argument, which may be an object or the text of one.
-/

namespace LogosInspector.Operations

/-- What the operations take from libraries: the parser and the printer of JSON, floating-point
numbers, the clock that does not go back, and the requests, which are only kept. -/
structure OperationExternals where
  /-- `serde_json::from_str` -/
  parseJson : Text → Option Json
  /-- The number of bytes of a printed JSON value. -/
  jsonBytes : Json → ℕ
  /-- `f64` -/
  F64 : Type
  zero : F64
  one : F64
  /-- `f64::max` -/
  max : F64 → F64 → F64
  /-- The quotient of two numbers, or one if it is greater. -/
  ratio : ℕ → ℕ → F64
  /-- Whether two numbers differ by less than a hundredth. -/
  near : F64 → F64 → Bool
  /-- A number as JSON. -/
  toJson : F64 → Json
  /-- The first instant that the clock cannot represent. -/
  instantLimit : ℕ
  /-- A request of an operation. -/
  Request : Type

/-- A text without the white space around it, if there is anything else. -/
def nonemptyText (value : Text) : Option Text :=
  if value.trim = [] then none else some value.trim

/-- What identifies the events of a request. -/
inductive ModuleEventCorrelationKind
  /-- The id of a session. -/
  | session
  /-- The id of a request. -/
  | request
  deriving DecidableEq

structure ModuleCorrelation where
  bridgeCallbackId : Option ℕ
  sessionId : Option Text
  requestId : Option Text
  deriving DecidableEq

/-- The id that a correlation has for a kind of events. -/
def ModuleCorrelation.identityFor (correlation : ModuleCorrelation) :
    ModuleEventCorrelationKind → Option Text
  | .session => correlation.sessionId
  | .request => correlation.requestId

/-- Which events of a module report on a request. -/
structure ModuleTerminalEventContract where
  module : Text
  progressEvent : Option Text
  successEvent : Text
  successEventAlias : Option Text
  failureEvent : Option Text
  correlation : ModuleEventCorrelationKind
  deriving DecidableEq

/-- An event of a module. Its first argument is kept as it was parsed. -/
structure ModuleEventEnvelope where
  moduleName : Text
  eventName : Text
  args : List Json
  firstPayload : Json

/-- What is known when a module has accepted a request. -/
structure ObservableOperationAcceptance where
  acknowledgement : Json
  correlation : ModuleCorrelation
  terminalEvent : ModuleTerminalEventContract

/-- Whether a contract is about an event. -/
def ModuleTerminalEventContract.recognizes (contract : ModuleTerminalEventContract)
    (event : ModuleEventEnvelope) : Bool :=
  contract.module = event.moduleName &&
    (contract.progressEvent = some event.eventName || contract.successEvent = event.eventName ||
      contract.successEventAlias = some event.eventName ||
      contract.failureEvent = some event.eventName)

/-- A text that looks like an object or an array, parsed. -/
def parsedValue (ext : OperationExternals) (value : Json) : Json :=
  match value with
  | .string text =>
    let text := text.trim
    if (text.head? = some '{' ∧ text.getLast? = some '}') ∨
        (text.head? = some '[' ∧ text.getLast? = some ']') then
      (ext.parseJson text).getD value
    else value
  | value => value

def valueText (value : Json) : Option Text := value.asStr?.bind nonemptyText

/-- The first of some fields of an object that is a text. -/
def objectText (object : Json) (keys : List String) : Option Text :=
  keys.findSome? fun key => (object.get? key).bind valueText

namespace ModuleEventEnvelope

/-- The bytes that it takes to keep an event. -/
def retainedSerializedBytes (ext : OperationExternals) (event : ModuleEventEnvelope) :
    Except String ℕ :=
  let bytes := ext.jsonBytes (.array [.string event.moduleName, .string event.eventName,
    .array event.args, event.firstPayload])
  if bytes < 2 ^ 64 then .ok bytes
  else .error "failed to measure runtime module event: serialized module event byte count overflow"

def result (ext : OperationExternals) (event : ModuleEventEnvelope) : Json :=
  match event.args with
  | [] => .null
  | [_] => event.firstPayload
  | values => .array (values.map (parsedValue ext))

def correlationValue (event : ModuleEventEnvelope) : ModuleEventCorrelationKind → Option Text
  | .session => objectText event.firstPayload ["sessionId", "session_id"]
  | .request => (objectText event.firstPayload ["requestId", "request_id"]).or
      (event.args.head?.bind valueText)

/-- Whether an event reports a failure. -/
def failed (event : ModuleEventEnvelope) (contract : ModuleTerminalEventContract) : Bool :=
  contract.failureEvent = some event.eventName || (match event.firstPayload.get? "success" with
      | some (.bool value) => !value
      | _ => false) ||
    ((event.firstPayload.get? "error").bind valueText).isSome

def error (event : ModuleEventEnvelope) : Option Text :=
  ((event.firstPayload.get? "error").bind valueText).or (event.args[2]?.bind valueText)

/-- The bytes that were transferred, and those that there are. -/
def progress (event : ModuleEventEnvelope) : Option ℕ × Option ℕ :=
  let first := fun (keys : List String) =>
    (keys.findSome? event.firstPayload.get?).bind Json.asU64?
  (first ["bytes", "byteCount", "byte_count"],
    first ["totalBytes", "total_bytes", "contentLength", "content_length"])

end ModuleEventEnvelope

end LogosInspector.Operations
