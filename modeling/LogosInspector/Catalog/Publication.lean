import LogosInspector.Catalog.Worker

/-!
# The publication fence

The catalog service shows its state in one report. A controller answers the commands of its
clients one after the other and gives each run of a worker a number, the *source revision*; the
runs publish what they find in the report, whenever they like, and an old run is cancelled but
not interrupted. So the writes of old runs must not reach the report of a new one.

The report stands behind a lock (`watch::Sender`), and next to it, without a lock, the atomic
`desiredRevision`. To start a revision the controller stores the new number first and resets the
report in a second step (`CatalogService.proceed`); a run that holds the lock reads its token
first, then the desired revision and the number in the report, and only then writes
(`CatalogService.advance`). Each of these is a step of its own here, and the steps of the
controller, of all runs and of the clients are taken in any order (`CatalogService.step`).

Who wrote a field of the report is noted in `Writers`, which no step reads.
-/

namespace LogosInspector.Catalog

open List Option

/-! ### The report -/

/-- How far the catalog of a report has been checked against its source. -/
inductive CatalogVerificationState
  | empty
  | cachedUnverified
  | verifying
  | sourceBehind
  | verified
  | mismatch
  deriving DecidableEq

inductive ZoneCatalogReadinessPhase
  | waitingForBedrock
  deriving DecidableEq

/-- Why a source cannot be used yet. -/
structure ZoneCatalogReadinessReport where
  phase : ZoneCatalogReadinessPhase
  finalizedLibSlot : ℕ
  requiredCheckpointSlot : ℕ
  deriving DecidableEq

inductive ZoneCatalogSourceKind
  | directHttp
  | logoscoreCli
  | module
  deriving DecidableEq

/-- The source that a client configures. -/
structure ZoneCatalogSourceDescriptor where
  kind : ZoneCatalogSourceKind
  endpoint : Option Text
  fingerprint : Text
  deriving DecidableEq

/-- The report of the service. Its defaults are those of a service without a source. -/
structure ZoneCatalogServiceReport where
  sourceRevision : ℕ := 0
  sourceFingerprint : Option Text := none
  verificationState : CatalogVerificationState := .empty
  catalog : Option CatalogSnapshot := none
  readiness : Option ZoneCatalogReadinessReport := none
  currentError : Option String := none
  workerRunning : Bool := false

/-- What a run publishes. -/
structure ZoneCatalogPublication where
  verificationState : CatalogVerificationState
  catalog : Option CatalogSnapshot
  readiness : Option ZoneCatalogReadinessReport
  currentError : Option String

namespace ZoneCatalogServiceReport

/-- The report of a revision that begins. -/
def beginRevision (report : ZoneCatalogServiceReport) (sourceRevision : ℕ)
    (source : ZoneCatalogSourceDescriptor) : ZoneCatalogServiceReport :=
  { report with
    sourceRevision
    sourceFingerprint := some source.fingerprint
    verificationState := .verifying
    catalog := none
    readiness := none
    currentError := none
    workerRunning := false }

/-- The report of a service that stops. -/
def clear (sourceRevision : ℕ) : ZoneCatalogServiceReport := { sourceRevision }

/-- What `publish` writes. -/
def publish (report : ZoneCatalogServiceReport) (publication : ZoneCatalogPublication) :
    ZoneCatalogServiceReport :=
  { report with
    verificationState := publication.verificationState
    catalog := publication.catalog
    readiness := publication.readiness
    currentError := publication.currentError }

/-- The state that an error leaves a catalog in that was being verified. -/
def unverifiedState (report : ZoneCatalogServiceReport) : CatalogVerificationState :=
  if report.catalog.isSome then .cachedUnverified else .empty

/-- Whether `finish` gives up a verification. -/
def givesUp (report : ZoneCatalogServiceReport) (error : Option String) : Bool :=
  error.isSome && report.verificationState == .verifying

/-- What `finish` writes. -/
def finish (report : ZoneCatalogServiceReport) (error : Option String) : ZoneCatalogServiceReport :=
  { report with
    workerRunning := false
    readiness := none
    currentError := error.orElse fun _ => report.currentError
    verificationState :=
      if report.givesUp error then report.unverifiedState else report.verificationState }

end ZoneCatalogServiceReport

/-! ### The service -/

def ZoneCatalogServiceError.toText : ZoneCatalogServiceError → String
  | invalidSource detail => "invalid catalog source: " ++ detail
  | invalidState detail => "invalid catalog service state: " ++ detail
  | source detail => "catalog source failed: " ++ detail
  | catalog detail => "Zone Catalog failed: " ++ detail
  | worker detail => "Zone Catalog worker failed: " ++ detail
  | join detail => "Zone Catalog task failed: " ++ detail
  | cancelled => "Zone Catalog run was cancelled"
  | staleRevision expected current =>
      "Zone Catalog source revision is stale: expected " ++ toString expected ++ ", current "
        ++ toString current

inductive ZoneCatalogRunMode
  | resume
  | rebuild
  deriving DecidableEq

inductive CatalogControl
  | retry
  | rebuild
  deriving DecidableEq

/-- What a client asks of the controller. A service that is dropped closes the queue. -/
inductive CatalogServiceCommand
  | configure (source : ZoneCatalogSourceDescriptor)
  | control (control : CatalogControl)
  | shutdown
  | closed

structure CatalogRunRequest where
  source : ZoneCatalogSourceDescriptor
  forceRestart : Bool
  runMode : ZoneCatalogRunMode

/-- How far the task of a run has come. -/
inductive RunStage
  /-- The worker is at work. -/
  | working
  /-- The worker has returned. -/
  | returned (result : ZoneCatalogServiceResult Unit)
  /-- `is_current` has found that the run is not cancelled. -/
  | tokenRead (result : ZoneCatalogServiceResult Unit)
  /-- The run is about to call `finish`. -/
  | finishing (error : Option String)
  | ended
  | panicked

/-- A run of the worker. Its token is cancelled with the token of the service. -/
structure CatalogRun where
  sourceRevision : ℕ
  runMode : ZoneCatalogRunMode
  cancelled : Bool
  stage : RunStage

/-- Whether the task of a run is over (`join.is_finished()`). -/
def CatalogRun.isFinished (run : CatalogRun) : Bool :=
  match run.stage with
  | .ended | .panicked => true
  | _ => false

/-- The run that the controller has started last, by its place among the runs. -/
structure ActiveCatalogRun where
  source : ZoneCatalogSourceDescriptor
  run : ℕ

/-- A write that a run asks for. -/
inductive RunCall
  | publish (publication : ZoneCatalogPublication)
  | finish (error : Option String)

/-- How far a write has come that holds the lock of the report. -/
inductive UpdateStage
  | entered
  /-- The run is not cancelled, or nobody asks (`finish`). -/
  | tokenRead
  /-- The desired revision and the one of the report are that of the run. -/
  | revisionRead
  deriving DecidableEq

structure RunUpdate where
  run : ℕ
  call : RunCall
  stage : UpdateStage

/-- Why the controller resets the report and stops the active run. -/
inductive ControllerTask
  /-- It starts a run. -/
  | start (sourceRevision : ℕ) (request : CatalogRunRequest)
  /-- It ends, at a command or because the service is dropped. -/
  | invalidate (sourceRevision : ℕ) (byCommand : Bool)

def ControllerTask.sourceRevision : ControllerTask → ℕ
  | start sourceRevision _ => sourceRevision
  | invalidate sourceRevision _ => sourceRevision

/-- Where the controller stands. -/
inductive ControllerStage
  | ready
  /-- The desired revision is stored, the report is not reset yet. -/
  | resetting (task : ControllerTask)
  | cancelling (task : ControllerTask)
  | stopping (task : ControllerTask)
  | joining (run : ℕ) (task : ControllerTask)
  | joined (task : ControllerTask)
  | marking (sourceRevision : ℕ) (request : CatalogRunRequest)
  | spawning (sourceRevision : ℕ) (request : CatalogRunRequest)
  | stopped

/-- The runs that wrote the fields of the report last, since it was reset. -/
structure Writers where
  verificationState : Option ℕ := none
  catalog : Option ℕ := none
  readiness : Option ℕ := none
  currentError : Option ℕ := none

/-- The writers of the fields after a run has written. -/
def Writers.after (writers : Writers) (report : ZoneCatalogServiceReport) (run : ℕ) :
    RunCall → Writers
  | .publish _ => ⟨some run, some run, some run, some run⟩
  | .finish error =>
      { writers with
        readiness := some run
        currentError := if error.isSome then some run else writers.currentError
        verificationState :=
          if report.givesUp error then some run else writers.verificationState }

/-- The service, its controller and its runs. -/
structure CatalogService where
  desiredRevision : ℕ := 0
  report : ZoneCatalogServiceReport := {}
  /-- Whether the token of the service is cancelled. -/
  shutdown : Bool := false
  runs : List CatalogRun := []
  active : Option ActiveCatalogRun := none
  controller : ControllerStage := .ready
  /-- The write that holds the lock of the report. -/
  update : Option RunUpdate := none
  writers : Writers := {}
  /-- The answers that clients have got; the one to a shutdown holds no revision. -/
  answers : List (ZoneCatalogServiceResult (Option ℕ)) := []

/-- The largest number of `u64`. -/
def u64Max : ℕ := 2 ^ 64 - 1

namespace CatalogService

def isCancelled (service : CatalogService) (run : CatalogRun) : Bool :=
  run.cancelled || service.shutdown

def setStage (service : CatalogService) (index : ℕ) (stage : RunStage) : CatalogService :=
  { service with runs := service.runs.modify index ({ · with stage }) }

def cancelRun (service : CatalogService) (index : ℕ) : CatalogService :=
  { service with runs := service.runs.modify index ({ · with cancelled := true }) }

/-- The answer to a command, after which the controller takes the next one. -/
def answer (service : CatalogService) (result : ZoneCatalogServiceResult (Option ℕ)) :
    CatalogService :=
  { service with controller := .ready, answers := service.answers ++ [result] }

/-! ### The controller -/

def nextSourceRevision (service : CatalogService) : ZoneCatalogServiceResult ℕ :=
  if service.desiredRevision < u64Max then .ok (service.desiredRevision + 1)
  else .error (.invalidState "catalog source revision is exhausted")

/-- Whether the active run already serves a request. -/
def alreadyServed (service : CatalogService) (request : CatalogRunRequest) : Bool :=
  service.active.any fun active =>
    active.source = request.source && (service.runs[active.run]?).any (!·.isFinished)
      && !request.forceRestart

/-- `configure_catalog_run` as far as the store of the desired revision, the first step of
`begin_revision`. -/
def configureCatalogRun (service : CatalogService) (request : CatalogRunRequest) : CatalogService :=
  if service.alreadyServed request then
    service.answer (.ok (some service.desiredRevision))
  else
    match service.nextSourceRevision with
    | .error error => service.answer (.error error)
    | .ok sourceRevision =>
      { service with
        desiredRevision := sourceRevision
        controller := .resetting (.start sourceRevision request) }

def restartCatalogRun (service : CatalogService) (control : CatalogControl) : CatalogService :=
  match service.active with
  | none => service.answer (.error (.invalidState "catalog service has no configured source"))
  | some active =>
    service.configureCatalogRun
      { source := active.source
        forceRestart := true
        runMode := match control with
          | .retry => .resume
          | .rebuild => .rebuild }

/-- `invalidate_catalog_run` as far as the store of the desired revision, the first step of
`clear`. -/
def invalidateCatalogRun (service : CatalogService) (byCommand : Bool) : CatalogService :=
  let next := min (service.desiredRevision + 1) u64Max
  { service with
    desiredRevision := next
    controller := .resetting (.invalidate next byCommand) }

/-- The controller takes a command. -/
def accept (service : CatalogService) : CatalogServiceCommand → CatalogService
  | .configure source =>
      service.configureCatalogRun { source, forceRestart := false, runMode := .resume }
  | .control control => service.restartCatalogRun control
  | .shutdown => service.invalidateCatalogRun true
  | .closed => service.invalidateCatalogRun false

/-- The second step of `begin_revision` and of `clear`: the report is reset, under its lock. -/
def resetReport (service : CatalogService) : ControllerTask → CatalogService
  | .start sourceRevision request =>
      { service with
        report := service.report.beginRevision sourceRevision request.source
        writers := {}
        controller := .stopping (.start sourceRevision request) }
  | .invalidate sourceRevision byCommand =>
      { service with
        report := .clear sourceRevision
        writers := {}
        controller :=
          if byCommand then .cancelling (.invalidate sourceRevision byCommand)
          else .stopping (.invalidate sourceRevision byCommand) }

/-- `stop_catalog_run` as far as the wait for the task. -/
def stopCatalogRun (service : CatalogService) (task : ControllerTask) : CatalogService :=
  match service.active with
  | none => { service with controller := .joined task }
  | some active =>
    { service.cancelRun active.run with
      active := none
      controller := .joining active.run task }

/-- What becomes of a task when the task of the run has panicked. -/
def joinFailed (service : CatalogService) (detail : String) : ControllerTask → CatalogService
  | .start _ _ => service.answer (.error (.join detail))
  | .invalidate _ true =>
      { service.answer (.error (.join detail)) with controller := .stopped }
  | .invalidate _ false => { service with controller := .stopped }

/-- What becomes of a task when the active run is stopped. -/
def joinedRun (service : CatalogService) : ControllerTask → CatalogService
  | .start sourceRevision request =>
      if service.shutdown then service.answer (.error .cancelled)
      else { service with controller := .marking sourceRevision request }
  | .invalidate _ true => { service.answer (.ok none) with controller := .stopped }
  | .invalidate _ false => { service with controller := .stopped }

def markRunning (service : CatalogService) (sourceRevision : ℕ) : CatalogService :=
  if service.desiredRevision ≠ sourceRevision ∨ service.report.sourceRevision ≠ sourceRevision
  then service
  else { service with report := { service.report with workerRunning := true } }

def spawnRun (service : CatalogService) (sourceRevision : ℕ) (request : CatalogRunRequest) :
    CatalogService :=
  { service.answer (.ok (some sourceRevision)) with
    runs := service.runs ++ [⟨sourceRevision, request.runMode, false, .working⟩]
    active := some ⟨request.source, service.runs.length⟩ }

/-- The next step of the controller. It waits where the lock of the report is taken or the
task that it joins is not over. The text of a failed join is that of the runtime. -/
def proceed (service : CatalogService) (joinError : String) : Option CatalogService :=
  match service.controller with
  | .ready | .stopped => none
  | .resetting task => if service.update.isSome then none else some (service.resetReport task)
  | .cancelling task => some { service with shutdown := true, controller := .stopping task }
  | .stopping task => some (service.stopCatalogRun task)
  | .joining index task =>
      match (service.runs[index]?).map CatalogRun.stage with
      | some .ended => some { service with controller := .joined task }
      | some .panicked => some (service.joinFailed joinError task)
      | _ => none
  | .joined task => some (service.joinedRun task)
  | .marking sourceRevision request =>
      if service.update.isSome then none
      else some { service.markRunning sourceRevision with
        controller := .spawning sourceRevision request }
  | .spawning sourceRevision request => some (service.spawnRun sourceRevision request)

/-! ### The runs -/

/-- The guard of the task of a run, up to the second read of `is_current`: a worker that fails
for another reason than that its run is outdated is not asked whether it is current. -/
def readToken (service : CatalogService) (index : ℕ) (run : CatalogRun)
    (result : ZoneCatalogServiceResult Unit) : CatalogService :=
  let outdated := if service.isCancelled run then .finishing none else .tokenRead result
  service.setStage index <| match result with
    | .ok () | .error .cancelled | .error (.staleRevision _ _) => outdated
    | .error error => .finishing (some error.toText)

/-- What the task of a run reports once it knows whether the run is current. -/
def finalError (isCurrent : Bool) : ZoneCatalogServiceResult Unit → Option String
  | .ok () => if isCurrent then some "Zone Catalog worker stopped unexpectedly" else none
  | .error error => if isCurrent then some error.toText else none

/-- The next step of the task of a run whose worker has returned. -/
def conclude (service : CatalogService) (index : ℕ) : Option CatalogService :=
  (service.runs[index]?).bind fun run =>
    match run.stage with
    | .returned result => some (service.readToken index run result)
    | .tokenRead result =>
        let isCurrent := service.desiredRevision = run.sourceRevision
        some (service.setStage index (.finishing (finalError isCurrent result)))
    | .finishing error =>
        if service.update.isSome then none
        else some { service with update := some ⟨index, .finish error, .tokenRead⟩ }
    | _ => none

/-- The worker of a run returns, or panics. -/
def workerEnds (service : CatalogService) (index : ℕ)
    (result : Option (ZoneCatalogServiceResult Unit)) : Option CatalogService :=
  (service.runs[index]?).bind fun run =>
    match run.stage with
    | .working => some (service.setStage index (result.elim .panicked .returned))
    | _ => none

/-- A run takes the lock of the report to publish. Its context can be handed on, so this can
happen at any stage of its task. -/
def enter (service : CatalogService) (index : ℕ) (publication : ZoneCatalogPublication) :
    Option CatalogService :=
  if service.update.isSome || service.runs.length ≤ index then none
  else some { service with update := some ⟨index, .publish publication, .entered⟩ }

/-- A run gives the lock of the report back. With it `finish` ends the task. -/
def release (service : CatalogService) (update : RunUpdate) : CatalogService :=
  match update.call with
  | .publish _ => { service with update := none }
  | .finish _ => { service.setStage update.run .ended with update := none }

def write (service : CatalogService) (update : RunUpdate) : CatalogService :=
  { service with
    report := match update.call with
      | .publish publication => service.report.publish publication
      | .finish error => service.report.finish error
    writers := service.writers.after service.report update.run update.call }

/-- The next step of the write that holds the lock. -/
def advance (service : CatalogService) : Option CatalogService :=
  service.update.bind fun update => (service.runs[update.run]?).map fun run =>
    match update.stage with
    | .entered =>
        if service.isCancelled run then service.release update
        else { service with update := some { update with stage := .tokenRead } }
    | .tokenRead =>
        if service.desiredRevision ≠ run.sourceRevision
            ∨ service.report.sourceRevision ≠ run.sourceRevision then service.release update
        else { service with update := some { update with stage := .revisionRead } }
    | .revisionRead => (service.write update).release update

end CatalogService

/-! ### Interleavings -/

/-- The steps of the service. -/
inductive ServiceStep
  /-- The controller takes a command. -/
  | accept (command : CatalogServiceCommand)
  /-- The controller notices that the service was dropped. -/
  | notice
  | proceed (joinError : String)
  | workerEnds (run : ℕ) (result : Option (ZoneCatalogServiceResult Unit))
  | conclude (run : ℕ)
  | publish (run : ℕ) (publication : ZoneCatalogPublication)
  | advance
  /-- The service is dropped. -/
  | drop

namespace CatalogService

/-- The state after a step, if the step can be taken. -/
def step (service : CatalogService) : ServiceStep → Option CatalogService
  | .accept command =>
      match service.controller with
      | .ready => some (service.accept command)
      | _ => none
  | .notice =>
      match service.controller with
      | .ready => if service.shutdown then some (service.invalidateCatalogRun false) else none
      | _ => none
  | .proceed joinError => service.proceed joinError
  | .workerEnds run result => service.workerEnds run result
  | .conclude run => service.conclude run
  | .publish run publication => service.enter run publication
  | .advance => service.advance
  | .drop => some { service with shutdown := true }

/-- The state after some steps, if all of them can be taken. -/
def run (service : CatalogService) (steps : List ServiceStep) : Option CatalogService :=
  steps.foldlM step service

/-! ### Who wrote the report -/

/-- The revisions of the runs, in the order in which they were started. -/
def revisions (service : CatalogService) : List ℕ :=
  service.runs.map (·.sourceRevision)

end CatalogService

/-- A field was written by the run of a revision. -/
def WrittenBy (revisions : List ℕ) (sourceRevision : ℕ) (writer : Option ℕ) : Prop :=
  ∃ index, writer = some index ∧ revisions[index]? = some sourceRevision

/-- What stands in the report was written by the run of its revision. -/
structure Owned (revisions : List ℕ) (report : ZoneCatalogServiceReport) (writers : Writers) :
    Prop where
  catalog : report.catalog.isSome → WrittenBy revisions report.sourceRevision writers.catalog
  readiness : report.readiness.isSome → WrittenBy revisions report.sourceRevision writers.readiness
  currentError :
    report.currentError.isSome → WrittenBy revisions report.sourceRevision writers.currentError
  verificationState : report.verificationState ≠ .verifying → report.verificationState ≠ .empty →
    WrittenBy revisions report.sourceRevision writers.verificationState

variable {index : ℕ}

section Owned

variable {revisions later : List ℕ} {report : ZoneCatalogServiceReport} {writers : Writers}
  {sourceRevision : ℕ} {writer : Option ℕ}

theorem WrittenBy.mono (h : WrittenBy revisions sourceRevision writer)
    (hlate : revisions <+: later) : WrittenBy later sourceRevision writer := by
  obtain ⟨index, hw, hind⟩ := h
  obtain ⟨_, rfl⟩ := hlate
  obtain ⟨hlt, -⟩ := List.getElem?_eq_some_iff.1 hind
  exact ⟨index, hw, by rw [List.getElem?_append_left hlt, hind]⟩

theorem Owned.mono (h : Owned revisions report writers) (hlate : revisions <+: later) :
    Owned later report writers where
  catalog hsome := (h.catalog hsome).mono hlate
  readiness hsome := (h.readiness hsome).mono hlate
  currentError hsome := (h.currentError hsome).mono hlate
  verificationState hv hempty := (h.verificationState hv hempty).mono hlate

theorem owned_beginRevision (report : ZoneCatalogServiceReport)
    {source : ZoneCatalogSourceDescriptor} :
    Owned revisions (report.beginRevision sourceRevision source) {} := by
  constructor <;> simp [ZoneCatalogServiceReport.beginRevision]

theorem owned_clear : Owned revisions (.clear sourceRevision) {} := by
  constructor <;> simp [ZoneCatalogServiceReport.clear]

theorem owned_publish (hind : revisions[index]? = some report.sourceRevision)
    (publication : ZoneCatalogPublication) :
    Owned revisions (report.publish publication)
      (writers.after report index (.publish publication)) := by
  have hwrite : WrittenBy revisions (report.publish publication).sourceRevision (some index) :=
    ⟨index, rfl, hind⟩
  exact ⟨fun _ => hwrite, fun _ => hwrite, fun _ => hwrite, fun _ _ => hwrite⟩

theorem owned_finish (h : Owned revisions report writers)
    (hind : revisions[index]? = some report.sourceRevision) (error : Option String) :
    Owned revisions (report.finish error) (writers.after report index (.finish error)) := by
  have hwrite : WrittenBy revisions (report.finish error).sourceRevision (some index) :=
    ⟨index, rfl, hind⟩
  refine ⟨h.catalog, fun _ => hwrite, fun hsome => ?_, fun hv hempty => ?_⟩
  · -- Without an error of its own `finish` keeps the one of the report.
    cases error with
    | none => exact h.currentError hsome
    | some _ => exact hwrite
  · by_cases hgives : report.givesUp error = true
    · simp only [Writers.after, hgives, if_true]
      exact hwrite
    · simp only [ZoneCatalogServiceReport.finish, hgives, Writers.after,
        Bool.false_eq_true, if_false] at hv hempty ⊢
      exact h.verificationState hv hempty

end Owned

/-! ### The fence -/

/-- The task of the controller starts a run, of a revision that no run has had. -/
def ControllerTask.Fresh (desired : ℕ) (revisions : List ℕ) : ControllerTask → Prop
  | start sourceRevision _ => sourceRevision = desired ∧ ∀ old ∈ revisions, old < sourceRevision
  | invalidate _ _ => True

/-- How the desired revision, the one of the report and those of the runs stand to each other,
by the stage of the controller. Only between the two steps of a reset is the report behind. -/
def ControllerStage.Sound (desired reported : ℕ) (revisions : List ℕ) : ControllerStage → Prop
  | ready | stopped => reported = desired
  | resetting (.start sourceRevision _) => sourceRevision = desired ∧ reported < desired
  | resetting (.invalidate sourceRevision _) =>
      sourceRevision = desired ∧ reported ≤ desired ∧ (reported < u64Max → reported < desired)
  | cancelling task | stopping task | joining _ task | joined task =>
      reported = desired ∧ task.Fresh desired revisions
  | marking sourceRevision _ | spawning sourceRevision _ =>
      reported = desired ∧ sourceRevision = desired ∧ ∀ old ∈ revisions, old < sourceRevision

/-- What holds of the service at any time. -/
structure Fenced (service : CatalogService) : Prop where
  desired_le : service.desiredRevision ≤ u64Max
  controller : service.controller.Sound service.desiredRevision service.report.sourceRevision
    service.revisions
  revisions_le : ∀ old ∈ service.revisions, old ≤ service.report.sourceRevision
  increasing : service.revisions.Pairwise (· < ·)
  /-- A run that has read its revision in the report keeps the report from changing. -/
  update : ∀ update, service.update = some update → update.stage = .revisionRead →
    service.revisions[update.run]? = some service.report.sourceRevision
  owned : Owned service.revisions service.report service.writers

/-- What one step leaves of the service: the revision of the report does not decrease, and no
run is forgotten. -/
structure Follows (service next : CatalogService) : Prop where
  fenced : Fenced next
  reported_le : service.report.sourceRevision ≤ next.report.sourceRevision
  revisions_keep : service.revisions <+: next.revisions

theorem Follows.trans {service next later : CatalogService} (h : Follows service next)
    (h' : Follows next later) : Follows service later where
  fenced := h'.fenced
  reported_le := h.reported_le.trans h'.reported_le
  revisions_keep := h.revisions_keep.trans h'.revisions_keep

namespace CatalogService

variable {service next : CatalogService} {update : RunUpdate}

section Runs

variable {stage : RunStage}

theorem map_modify_of_eq {α β : Type} {f : α → α} {g : α → β} (h : ∀ a, g (f a) = g a)
    (l : List α) (index : ℕ) : (l.modify index f).map g = l.map g := by
  induction l generalizing index with
  | nil => cases index <;> rfl
  | cons _ _ ih =>
    cases index with
    | zero => simp [h]
    | succ _ => simp [ih]

@[simp]
theorem revisions_setStage : (service.setStage index stage).revisions = service.revisions := by
  refine map_modify_of_eq ?_ _ _
  exact fun _ => rfl

@[simp]
theorem revisions_cancelRun : (service.cancelRun index).revisions = service.revisions := by
  refine map_modify_of_eq ?_ _ _
  exact fun _ => rfl

theorem follows_of_keeps (h : Fenced service)
    (hd : next.desiredRevision = service.desiredRevision)
    (hcon : next.controller = service.controller)
    (hr : next.report.sourceRevision = service.report.sourceRevision)
    (hrev : next.revisions = service.revisions)
    (hu : ∀ update, next.update = some update → update.stage = .revisionRead →
      service.revisions[update.run]? = some service.report.sourceRevision)
    (hown : Owned service.revisions next.report next.writers) : Follows service next where
  fenced :=
    { desired_le := by rw [hd]; exact h.desired_le
      controller := by
        rw [hcon, hd, hr, hrev]
        exact h.controller
      revisions_le := by
        rw [hrev, hr]
        exact h.revisions_le
      increasing := by rw [hrev]; exact h.increasing
      update := by rw [hrev, hr]; exact hu
      owned := by rw [hrev]; exact hown }
  reported_le := hr.ge
  revisions_keep := hrev ▸ prefix_rfl

/-- A step of a run that does not write leaves the report as it is. -/
structure Passes (service next : CatalogService) : Prop where
  desired : next.desiredRevision = service.desiredRevision
  controller : next.controller = service.controller
  report : next.report = service.report
  writers : next.writers = service.writers
  revisions : next.revisions = service.revisions
  update : ∀ update, next.update = some update → update.stage = .revisionRead →
    service.update = some update ∨
      service.revisions[update.run]? = some service.report.sourceRevision

theorem Passes.follows (hp : Passes service next) (h : Fenced service) : Follows service next := by
  refine follows_of_keeps h hp.desired hp.controller (by rw [hp.report]) hp.revisions
    (fun update hheld hread => ?_) (by rw [hp.report, hp.writers]; exact h.owned)
  exact (hp.update update hheld hread).elim (h.update update · hread) id

theorem passes_setStage : Passes service (service.setStage index stage) :=
  ⟨rfl, rfl, rfl, rfl, revisions_setStage, fun _ hheld _ => .inl hheld⟩

theorem passes_workerEnds {result : Option (ZoneCatalogServiceResult Unit)}
    (hstep : service.workerEnds index result = some next) : Passes service next := by
  obtain ⟨_, -, hrun⟩ := bind_eq_some_iff.1 hstep
  split at hrun
  · cases hrun
    exact passes_setStage
  · simp at hrun

/-- A run that takes the lock has not read anything of the report. -/
theorem passes_lock {call : RunCall} {read : UpdateStage} (hst : read ≠ .revisionRead) :
    Passes service { service with update := some ⟨index, call, read⟩ } := by
  refine ⟨rfl, rfl, rfl, rfl, rfl, fun _ hu hread => ?_⟩
  cases hu
  exact absurd hread hst

theorem passes_conclude (hstep : service.conclude index = some next) : Passes service next := by
  obtain ⟨_, -, hrun⟩ := bind_eq_some_iff.1 hstep
  split at hrun
  · cases hrun
    exact passes_setStage
  · cases hrun
    exact passes_setStage
  · split_ifs at hrun
    cases hrun
    exact passes_lock (by decide)
  · simp at hrun

theorem passes_enter {publication : ZoneCatalogPublication}
    (hstep : service.enter index publication = some next) : Passes service next := by
  rw [enter] at hstep
  split_ifs at hstep
  cases hstep
  exact passes_lock (by decide)

theorem passes_release : Passes service (service.release update) := by
  rw [release]
  split
  · exact ⟨rfl, rfl, rfl, rfl, rfl, by simp⟩
  · exact ⟨rfl, rfl, rfl, rfl, revisions_setStage, by simp⟩

/-- A write keeps the revision of the report, and the run that writes is the one of this
revision. -/
theorem follows_write (h : Fenced service)
    (hind : service.revisions[update.run]? = some service.report.sourceRevision) :
    Follows service (service.write update) := by
  rcases hc : update.call with publication | error
  · refine follows_of_keeps h rfl rfl ?_ rfl h.update ?_
    · simp only [write, hc, ZoneCatalogServiceReport.publish]
    · simp only [write, hc]
      exact owned_publish hind publication
  · refine follows_of_keeps h rfl rfl ?_ rfl h.update ?_
    · simp only [write, hc, ZoneCatalogServiceReport.finish]
    · simp only [write, hc]
      exact owned_finish h.owned hind error

theorem revisions_getElem? {run : CatalogRun} (h : service.runs[index]? = some run) :
    service.revisions[index]? = some run.sourceRevision := by
  simp only [revisions, getElem?_map, h, map_some]

/-- A write that goes on reads, or has read the revision of the report. -/
theorem advance_cases (hheld : service.update = some update) (hstep : service.advance = some next) :
    Passes service next ∨
      (update.stage = .revisionRead ∧ next = (service.write update).release update) := by
  obtain ⟨held, hheld', hstep⟩ := bind_eq_some_iff.1 hstep
  obtain rfl : update = held := Option.some.inj (hheld.symm.trans hheld')
  obtain ⟨_, hrun, rfl⟩ := map_eq_some_iff.1 hstep
  split
  · split_ifs
    · exact .inl passes_release
    · exact .inl (passes_lock (by decide))
  · split_ifs with hstale
    · exact .inl passes_release
    · -- The desired revision may change after this, the report may not.
      refine .inl ⟨rfl, rfl, rfl, rfl, rfl, fun _ hheld' _ => .inr ?_⟩
      cases hheld'
      rw [not_or, not_not, not_not] at hstale
      rw [revisions_getElem? hrun, hstale.2]
  · exact .inr ⟨‹_›, rfl⟩

theorem follows_advance (h : Fenced service) (hstep : service.advance = some next) :
    Follows service next := by
  obtain ⟨update, hheld, -⟩ := bind_eq_some_iff.1 hstep
  rcases advance_cases hheld hstep with hp | ⟨hread, rfl⟩
  · exact hp.follows h
  · have hwrite := follows_write h (h.update update hheld hread)
    exact hwrite.trans (passes_release.follows hwrite.fenced)

end Runs

section Controller

variable {task : ControllerTask}

variable (h : Fenced service)

include h

/-- A step of the controller that leaves the report and the runs alone. -/
theorem follows_of_stage (hr : next.report = service.report)
    (hw : next.writers = service.writers)
    (hu : next.update = service.update) (hrev : next.revisions = service.revisions)
    (hd : next.desiredRevision ≤ u64Max)
    (hcon : next.controller.Sound next.desiredRevision service.report.sourceRevision
      service.revisions) : Follows service next where
  fenced :=
    { desired_le := hd
      controller := by rw [hr, hrev]; exact hcon
      revisions_le := by rw [hr, hrev]; exact h.revisions_le
      increasing := by rw [hrev]; exact h.increasing
      update := by rw [hu, hr, hrev]; exact h.update
      owned := by rw [hr, hw, hrev]; exact h.owned }
  reported_le := by rw [hr]
  revisions_keep := hrev ▸ prefix_rfl

section

variable (hset : service.report.sourceRevision = service.desiredRevision)

include hset

theorem follows_answer {result : ZoneCatalogServiceResult (Option ℕ)} :
    Follows service (service.answer result) :=
  follows_of_stage h rfl rfl rfl rfl h.desired_le hset

theorem follows_configureCatalogRun {req : CatalogRunRequest} :
    Follows service (service.configureCatalogRun req) := by
  rw [configureCatalogRun]
  split_ifs
  · exact follows_answer h hset
  · rw [nextSourceRevision]
    split_ifs with hlt
    · refine follows_of_stage h rfl rfl rfl rfl (Nat.succ_le_of_lt hlt) ⟨rfl, ?_⟩
      show service.report.sourceRevision < service.desiredRevision + 1
      omega
    · exact follows_answer h hset

theorem follows_invalidateCatalogRun {byCommand : Bool} :
    Follows service (service.invalidateCatalogRun byCommand) := by
  have hle := h.desired_le
  refine follows_of_stage h rfl rfl rfl rfl (Nat.min_le_right _ _) ⟨rfl, ?_, ?_⟩
  · show service.report.sourceRevision ≤ min (service.desiredRevision + 1) u64Max
    omega
  · show service.report.sourceRevision < u64Max →
      service.report.sourceRevision < min (service.desiredRevision + 1) u64Max
    omega

theorem follows_accept {command : CatalogServiceCommand} :
    Follows service (service.accept command) := by
  cases command with
  | configure => exact follows_configureCatalogRun h hset
  | control =>
    rw [accept, restartCatalogRun.eq_def]
    split
    · exact follows_answer h hset
    · exact follows_configureCatalogRun h hset
  | shutdown | closed => exact follows_invalidateCatalogRun h hset

end

/-- The report is reset while no run holds its lock, so no run can have read its old revision
and write after the reset. -/
theorem follows_resetReport (hst : service.controller = .resetting task)
    (hfree : service.update = none) : Follows service (service.resetReport task) := by
  have hs := h.controller
  rw [hst] at hs
  have hle : service.report.sourceRevision ≤ task.sourceRevision := by
    cases task with
    | start => exact hs.1 ▸ hs.2.le
    | invalidate => exact hs.1 ▸ hs.2.1
  have hrev : ∀ old ∈ service.revisions, old ≤ task.sourceRevision :=
    fun old hold => (h.revisions_le old hold).trans hle
  have hu : ∀ update, service.update = some update → update.stage = .revisionRead →
      service.revisions[update.run]? = some task.sourceRevision := by
    simp [hfree]
  cases task with
  | start sourceRevision =>
    refine ⟨⟨h.desired_le, ⟨hs.1, hs.1, fun old hold => ?_⟩, hrev, h.increasing,
      hu, owned_beginRevision service.report⟩, hle, prefix_rfl⟩
    calc old ≤ service.report.sourceRevision := h.revisions_le old hold
      _ < service.desiredRevision := hs.2
      _ = sourceRevision := hs.1.symm
  | invalidate _ byCommand =>
    refine ⟨⟨h.desired_le, ?_, hrev, h.increasing, hu, owned_clear⟩, hle, prefix_rfl⟩
    cases byCommand
    · exact ⟨hs.1, trivial⟩
    · exact ⟨hs.1, trivial⟩

theorem follows_stopCatalogRun (hst : service.controller = .stopping task) :
    Follows service (service.stopCatalogRun task) := by
  have hsound := h.controller
  rw [hst] at hsound
  rw [stopCatalogRun]
  split
  · exact follows_of_stage h rfl rfl rfl rfl h.desired_le hsound
  · exact follows_of_stage h rfl rfl rfl revisions_cancelRun h.desired_le hsound

theorem follows_joinFailed {detail : String}
    (hset : service.report.sourceRevision = service.desiredRevision) :
    Follows service (service.joinFailed detail task) := by
  cases task with
  | start => exact follows_answer h hset
  | invalidate _ byCommand =>
    cases byCommand <;> exact follows_of_stage h rfl rfl rfl rfl h.desired_le hset

theorem follows_joinedRun (hst : service.controller = .joined task) :
    Follows service (service.joinedRun task) := by
  have hsound := h.controller
  rw [hst] at hsound
  cases task with
  | start =>
    rw [joinedRun]
    split_ifs
    · exact follows_answer h hsound.1
    · exact follows_of_stage h rfl rfl rfl rfl h.desired_le hsound
  | invalidate _ byCommand =>
    cases byCommand <;> exact follows_of_stage h rfl rfl rfl rfl h.desired_le hsound.1

variable {sourceRevision : ℕ}

theorem follows_markRunning :
    Follows service (service.markRunning sourceRevision) := by
  rw [markRunning]
  split_ifs
  · exact ⟨h, le_rfl, prefix_rfl⟩
  · have hown := h.owned
    exact follows_of_keeps h rfl rfl rfl rfl h.update
      ⟨hown.catalog, hown.readiness, hown.currentError, hown.verificationState⟩

omit h in
theorem markRunning_controller :
    (service.markRunning sourceRevision).controller = service.controller := by
  rw [markRunning]
  split_ifs <;> rfl

/-- The new run has the revision of the report, which no run has had before. -/
theorem follows_spawnRun {req : CatalogRunRequest}
    (hst : service.controller = .spawning sourceRevision req) :
    Follows service (service.spawnRun sourceRevision req) := by
  have hsound := h.controller
  rw [hst] at hsound
  obtain ⟨hset, _, hfresh⟩ := hsound
  have hrev : (service.spawnRun sourceRevision req).revisions
      = service.revisions ++ [sourceRevision] := by
    simp [spawnRun, revisions, answer]
  have hkeep : service.revisions <+: (service.spawnRun sourceRevision req).revisions :=
    hrev ▸ prefix_append _ _
  refine ⟨⟨h.desired_le, hset, ?_, ?_, ?_, h.owned.mono hkeep⟩, le_rfl, hkeep⟩
  · intro old hold
    rw [hrev, mem_append, mem_singleton] at hold
    rcases hold with hold | rfl
    · exact h.revisions_le old hold
    · show old ≤ service.report.sourceRevision
      omega
  · rw [hrev, pairwise_append]
    refine ⟨h.increasing, pairwise_singleton _ _, fun old hold _ hnew => ?_⟩
    rw [mem_singleton.1 hnew]
    exact hfresh old hold
  · intro update hu hread
    have hind := h.update update hu hread
    obtain ⟨hlt, -⟩ := List.getElem?_eq_some_iff.1 hind
    rw [hrev, List.getElem?_append_left hlt]
    exact hind

theorem follows_proceed {joinError : String}
    (hstep : service.proceed joinError = some next) : Follows service next := by
  have hs := h.controller
  rcases hst : service.controller with _ | _ | _ | _ | ⟨_, _⟩ | _ |
    ⟨sourceRevision, req⟩ | ⟨sourceRevision, req⟩ | _
  all_goals simp only [proceed, hst] at hstep; rw [hst] at hs
  · simp at hstep
  · split_ifs at hstep with hheld
    rw [Bool.not_eq_true, isSome_eq_false_iff, isNone_iff_eq_none] at hheld
    cases hstep
    exact follows_resetReport h hst hheld
  · cases hstep
    exact follows_of_stage h rfl rfl rfl rfl h.desired_le hs
  · cases hstep
    exact follows_stopCatalogRun h hst
  · split at hstep
    · cases hstep
      exact follows_of_stage h rfl rfl rfl rfl h.desired_le hs
    · cases hstep
      exact follows_joinFailed h hs.1
    · simp at hstep
  · cases hstep
    exact follows_joinedRun h hst
  · split_ifs at hstep
    cases hstep
    have hm : Follows service (service.markRunning sourceRevision) := follows_markRunning h
    have hs := hm.fenced.controller
    rw [markRunning_controller, hst] at hs
    exact hm.trans (follows_of_stage hm.fenced rfl rfl rfl rfl hm.fenced.desired_le hs)
  · cases hstep
    exact follows_spawnRun h hst
  · simp at hstep

end Controller

/-! ### Runs of the service -/

variable {later : CatalogService} {taken : ServiceStep} {steps : List ServiceStep}

theorem follows_step (h : Fenced service) (hstep : service.step taken = some next) :
    Follows service next := by
  cases taken with
  | accept =>
    rcases hst : service.controller <;> simp only [step, hst, reduceCtorEq] at hstep
    injection hstep with hstep
    have hs := h.controller
    rw [hst] at hs
    exact hstep ▸ follows_accept h hs
  | notice =>
    rcases hst : service.controller <;> simp only [step, hst, reduceCtorEq] at hstep
    have hs := h.controller
    rw [hst] at hs
    split_ifs at hstep
    cases hstep
    exact follows_invalidateCatalogRun h hs
  | proceed => exact follows_proceed h hstep
  | workerEnds => exact (passes_workerEnds hstep).follows h
  | conclude => exact (passes_conclude hstep).follows h
  | publish => exact (passes_enter hstep).follows h
  | advance => exact follows_advance h hstep
  | drop =>
    cases hstep
    exact follows_of_keeps h rfl rfl rfl rfl h.update h.owned

theorem fenced_initial : Fenced {} where
  desired_le := Nat.zero_le _
  controller := rfl
  revisions_le := by simp [revisions]
  increasing := List.Pairwise.nil
  update := by simp
  owned := owned_clear

theorem follows_run (h : Fenced service) (hrun : service.run steps = some next) :
    Follows service next := by
  induction steps generalizing service with
  | nil =>
    cases hrun
    exact ⟨h, le_rfl, prefix_rfl⟩
  | cons _ _ ih =>
    obtain ⟨_, hstep, hrest⟩ := bind_eq_some_iff.1 hrun
    have hfirst := follows_step h hstep
    exact hfirst.trans (ih hfirst.fenced hrest)

/-- The run that takes a step. -/
def takenBy (service : CatalogService) : ServiceStep → Option ℕ
  | .workerEnds run _ | .conclude run | .publish run _ => some run
  | .advance => service.update.map (·.run)
  | .accept _ | .notice | .proceed _ | .drop => none

/-- The step is the reset of the report by `begin_revision` or `clear`. -/
def resets (service : CatalogService) : ServiceStep → Bool
  | .proceed _ =>
      match service.controller with
      | .resetting _ => true
      | _ => false
  | _ => false

/-- **A run of another revision than that of the report does not change the report.** -/
theorem stale_report (h : Fenced service)
    (hstale : service.revisions[index]? ≠ some service.report.sourceRevision)
    (htaken : service.takenBy taken = some index) (hstep : service.step taken = some next) :
    next.report = service.report := by
  cases taken with
  | accept | notice | proceed | drop => simp [takenBy] at htaken
  | workerEnds => exact (passes_workerEnds hstep).report
  | conclude => exact (passes_conclude hstep).report
  | publish => exact (passes_enter hstep).report
  | advance =>
    obtain ⟨update, hheld, rfl⟩ := map_eq_some_iff.1 htaken
    rcases advance_cases hheld hstep with hp | ⟨hread, -⟩
    · exact hp.report
    · exact absurd (h.update update hheld hread) hstale

/-- A reset starts no run, and below the largest number it gives the report a new one. -/
theorem reset_revision (h : Fenced service) (hres : service.resets taken = true)
    (hbelow : service.report.sourceRevision < u64Max) (hstep : service.step taken = some next) :
    next.revisions = service.revisions ∧
      service.report.sourceRevision < next.report.sourceRevision := by
  cases taken with
  | proceed =>
    have hs := h.controller
    rcases hst : service.controller with _ | task | _ | _ | _ | _ | _ | _ | _
    all_goals simp only [resets, hst, Bool.false_eq_true] at hres
    rw [hst] at hs
    simp only [step, proceed, hst] at hstep
    split_ifs at hstep
    cases hstep
    cases task with
    | start sourceRevision =>
      refine ⟨rfl, ?_⟩
      exact hs.1 ▸ hs.2
    | invalidate sourceRevision =>
      refine ⟨rfl, ?_⟩
      show service.report.sourceRevision < sourceRevision
      exact hs.1 ▸ hs.2.2 hbelow
  | _ => simp [resets] at hres

/-- After a reset the runs started before it are of an older revision than the report, for
good. -/
theorem stale_after_reset {rest : List ServiceStep} (h : Fenced service)
    (hres : service.resets taken = true) (hbelow : service.report.sourceRevision < u64Max)
    (hstep : service.step taken = some next) (hrest : next.run rest = some later)
    (hind : index < next.runs.length) :
    later.revisions[index]? ≠ some later.report.sourceRevision := by
  have hnext := follows_step h hstep
  have hlate := follows_run hnext.fenced hrest
  obtain ⟨hs, _⟩ := reset_revision h hres hbelow hstep
  have hind : index < next.revisions.length := by rwa [revisions, length_map]
  obtain ⟨_, hstart⟩ := hlate.revisions_keep
  rw [← hstart, List.getElem?_append_left hind]
  intro hcur
  have hold : later.report.sourceRevision ∈ service.revisions :=
    hs ▸ mem_of_getElem? hcur
  have := h.revisions_le _ hold
  have := hlate.reported_le
  omega

/-- **The publication fence.** At any time, whatever steps the controller, the runs and the
clients have taken: what stands in the report was written by the run of its revision, which is
the only one of this revision; the revision of the report never decreases; and once
`begin_revision` or `clear` has reset the report, no step of a run started earlier changes it.
The last holds for `clear` as long as there is a next number to give. -/
theorem report_fenced {steps : List ServiceStep} {service : CatalogService}
    (hrun : ({} : CatalogService).run steps = some service) :
    Owned service.revisions service.report service.writers ∧ service.revisions.Nodup ∧
      (∀ rest later, service.run rest = some later →
        service.report.sourceRevision ≤ later.report.sourceRevision) ∧
      ∀ taken next, service.resets taken = true → service.report.sourceRevision < u64Max →
        service.step taken = some next →
        ∀ rest later, next.run rest = some later →
        ∀ index, index < next.runs.length →
        ∀ written last, later.takenBy written = some index → later.step written = some last →
          last.report = later.report := by
  have h := (follows_run fenced_initial hrun).fenced
  refine ⟨h.owned, h.increasing.imp Nat.ne_of_lt, fun rest later hrest => ?_, ?_⟩
  · exact (follows_run h hrest).reported_le
  · intro _ _ hresets hbelow hstep _ _ hrest _ hindex _ _ htaken hlast
    have hlater := follows_run (follows_step h hstep).fenced hrest
    exact stale_report hlater.fenced (stale_after_reset h hresets hbelow hstep hrest hindex)
      htaken hlast

def sampleDescriptor : ZoneCatalogSourceDescriptor := ⟨.module, none, "sha256:0".toList⟩

/-- A run reads the revision for a publication, the controller stores the next revision for a
retry, and then the run writes: the report is still its own. -/
def overlappingSteps : List ServiceStep :=
  [.accept (.configure sampleDescriptor), .proceed "", .proceed "", .proceed "", .proceed "",
    .proceed "", .publish 0 ⟨.verified, none, none, none⟩, .advance, .advance,
    .accept (.control .retry), .advance]

theorem report_fenced_overlapping : ∃ service next,
    ({} : CatalogService).run overlappingSteps = some service ∧
      service.desiredRevision = 2 ∧ service.report.sourceRevision = 1 ∧
      service.report.verificationState = .verified ∧
      service.step (.proceed "") = some next ∧
      Owned service.revisions service.report service.writers ∧
      ∀ rest later, next.run rest = some later →
        ∀ written last, later.takenBy written = some 0 → later.step written = some last →
          last.report = later.report := by
  have hruns : (({} : CatalogService).run overlappingSteps).map (fun service =>
      (service.desiredRevision, service.report.sourceRevision, service.report.verificationState,
        service.resets (.proceed ""),
        (service.step (.proceed "")).map fun next => next.runs.length))
      = some (2, 1, .verified, true, some 1) := by decide
  obtain ⟨service, hrun, hservice⟩ := map_eq_some_iff.1 hruns
  simp only [Prod.mk.injEq] at hservice
  obtain ⟨hdesired, hrevision, hstate, hresets, hnext⟩ := hservice
  obtain ⟨next, hstep, _⟩ := map_eq_some_iff.1 hnext
  obtain ⟨howned, -, -, hfence⟩ := report_fenced hrun
  refine ⟨service, next, hrun, hdesired, hrevision, hstate, hstep, howned, ?_⟩
  intro rest later hrest written last htaken hlast
  exact hfence (.proceed "") next hresets (by rw [hrevision]; decide) hstep rest later hrest 0
    (by omega) written last htaken hlast

end CatalogService

end LogosInspector.Catalog
