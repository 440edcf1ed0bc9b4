import LogosInspector.Operations.Supervisor

/-!
# Commits that cannot be canceled

An execution that is about to change something for good enters a *commit*, and the supervisor, which
otherwise drops an execution that does not stop in time, then waits for its result
(`supervise_execution`, `await_termination_handshake`). It learns of a commit from a flag only,
which it loads at three moments; the flag is set and cleared by whoever executes, which may be a
worker in a thread of its own that is not stopped when its execution is dropped.

So what matters is the last of the three moments. An operation whose commit was entered is reported
as interrupted in two cases: the commit was over when the flag was loaded, and the result not there
yet, or the commit was entered after that (`commit_reported_iff`).
-/

namespace LogosInspector.Operations

/-- Where the supervision of an execution is. A `select!` polls its branches in their order, and
begins again when all of them are pending; between two polls anything can happen. -/
inductive SupervisionStage (ρ : Type)
  /-- In the first `select!`, about to poll the execution, the cancellation or the deadline. -/
  | executing
  | checkingCancellation
  | checkingDeadline
  | cancellationNoticed
  | deadlineNoticed
  /-- In the `select!` of the handshake, about to poll the execution or the grace period. -/
  | handshaking (reason : OperationStopReason)
  | checkingGrace (reason : OperationStopReason)
  | graceElapsed (reason : OperationStopReason)
  /-- Waiting for the execution and nothing else. -/
  | awaiting
  | returned (outcome : Except OperationInterrupted ρ)

/-- An execution under supervision. -/
structure SupervisedExecution (ρ : Type) where
  control : OperationControl
  /-- The token of all operations. -/
  root : Bool
  commitActive : Bool
  /-- Whether a commit has ever been entered. -/
  entered : Bool
  /-- What the execution has returned, once it is ready. -/
  result : Option ρ
  stage : SupervisionStage ρ

inductive SupervisionStep (ρ : Type)
  /-- The supervision goes on; a timer that is polled now has fired or not. -/
  | supervise (fired : Bool)
  | requestCancel
  | requestDeadline
  | requestShutdown
  | cancelRoot
  | beginNonCancellableCommit
  /-- The guard of the commit is dropped. -/
  | dropCommitGuard
  | finish (result : ρ)

def localOnlyInterruption (reason : OperationStopReason) : OperationInterrupted where
  reason := reason
  evidence := .localOnly
  message := match reason with
    | .cancelRequested =>
      "runtime operation stopped after cancellation; adapter termination is unconfirmed".toList
    | .deadlineExceeded =>
      "runtime operation deadline elapsed; adapter termination is unconfirmed".toList
    | .shutdown =>
      "runtime operation stopped during shutdown; adapter termination is unconfirmed".toList

namespace SupervisedExecution

variable {ρ : Type}

def initial (control : OperationControl) : SupervisedExecution ρ :=
  ⟨control, false, false, false, none, .executing⟩

/-- Poll the execution: return what it has returned, or go on. -/
def poll (s : SupervisedExecution ρ) (pending : SupervisionStage ρ) : SupervisedExecution ρ :=
  { s with stage := s.result.elim pending fun result => .returned (.ok result) }

/-- `commit_is_active`: wait for the execution if it commits. -/
def testCommit (s : SupervisedExecution ρ) (inactive : SupervisionStage ρ) :
    SupervisedExecution ρ :=
  { s with stage := if s.commitActive then .awaiting else inactive }

/-- The next step of `supervise_execution`. -/
def supervise (s : SupervisedExecution ρ) (fired : Bool) : Option (SupervisedExecution ρ) :=
  match s.stage with
  | .executing => some (s.poll .checkingCancellation)
  | .checkingCancellation =>
    some { s with stage :=
      if s.control.cancellation || s.root then .cancellationNoticed else .checkingDeadline }
  | .checkingDeadline =>
    some (if fired then { s with control := s.control.requestDeadline, stage := .deadlineNoticed }
      else { s with stage := .executing })
  | .cancellationNoticed =>
    some (s.testCommit (.handshaking (s.control.stopReason.getD .cancelRequested)))
  | .deadlineNoticed => some (s.testCommit (.handshaking .deadlineExceeded))
  | .handshaking reason => some (s.poll (.checkingGrace reason))
  | .checkingGrace reason =>
    some { s with stage := if fired then .graceElapsed reason else .handshaking reason }
  | .graceElapsed reason => some (s.testCommit (.returned (.error (localOnlyInterruption reason))))
  | .awaiting => some (s.poll .awaiting)
  | .returned _ => none

/-- `begin_non_cancellable_commit`, which fails while a commit is active. -/
def beginNonCancellableCommit (s : SupervisedExecution ρ) : SupervisedExecution ρ :=
  if s.commitActive then s else { s with commitActive := true, entered := true }

/-- The state after a step, if the step can be taken. -/
def step (s : SupervisedExecution ρ) : SupervisionStep ρ → Option (SupervisedExecution ρ)
  | .supervise fired => s.supervise fired
  | .requestCancel => some { s with control := s.control.requestCancel }
  | .requestDeadline => some { s with control := s.control.requestDeadline }
  | .requestShutdown => some { s with control := s.control.requestShutdown }
  | .cancelRoot => some { s with root := true }
  | .beginNonCancellableCommit => some s.beginNonCancellableCommit
  | .dropCommitGuard => if s.commitActive then some { s with commitActive := false } else none
  | .finish result => if s.result.isNone then some { s with result := some result } else none

def run (s : SupervisedExecution ρ) (steps : List (SupervisionStep ρ)) :
    Option (SupervisedExecution ρ) :=
  steps.foldlM step s

/-- The operation is reported as interrupted. -/
def Interrupted (s : SupervisedExecution ρ) : Prop :=
  ∃ interruption, s.stage = .returned (.error interruption)

/-- **A commit that was entered is not reported as an interruption.** -/
def Reported (s : SupervisedExecution ρ) : Prop := s.entered = true → ¬ s.Interrupted

/-- What is reported as a result is the one of the execution. -/
def Own (s : SupervisedExecution ρ) : Prop :=
  ∀ result, s.stage = .returned (.ok result) → s.result = some result

/-- **What has to be so when a step is taken**: at the end of the grace period a commit that was
entered is still active, and none is entered once the operation was interrupted. -/
def Timely (s : SupervisedExecution ρ) : SupervisionStep ρ → Prop
  | .supervise _ => ∀ reason, s.stage = .graceElapsed reason → s.entered = true →
    s.commitActive = true
  | .beginNonCancellableCommit => s.commitActive = false → ¬ s.Interrupted
  | _ => True

/-- Every step of a run is taken in time. -/
def TimelyRun (s : SupervisedExecution ρ) : List (SupervisionStep ρ) → Prop
  | [] => True
  | step :: steps => s.Timely step ∧ ∀ next, s.step step = some next → next.TimelyRun steps

variable {s next : SupervisedExecution ρ} {taken : SupervisionStep ρ}

/-- Only the last test of the flag interrupts an operation. -/
theorem supervise_interrupted {fired : Bool} (h : s.supervise fired = some next) :
    next.Interrupted ↔ (∃ reason, s.stage = .graceElapsed reason) ∧ s.commitActive = false := by
  unfold supervise at h
  cases hst : s.stage with rw [hst] at h
  | returned => cases h
  | graceElapsed =>
    cases h
    cases hac : s.commitActive <;> simp [Interrupted, testCommit, hac]
  | executing | handshaking | awaiting =>
    cases h
    cases hres : s.result <;> simp [Interrupted, poll, hres]
  | cancellationNoticed | deadlineNoticed =>
    cases h
    simp only [Interrupted, testCommit]
    split_ifs <;> simp
  | checkingCancellation | checkingDeadline | checkingGrace =>
    cases h
    simp only [Interrupted]
    split_ifs <;> simp

/-- The supervision only reads what the execution does. -/
theorem supervise_frame {fired : Bool} (h : s.supervise fired = some next) :
    next.entered = s.entered ∧ ¬ s.Interrupted ∧ next.Own := by
  unfold supervise at h
  cases hst : s.stage with rw [hst] at h
  | returned => cases h
  | executing | handshaking | awaiting =>
    cases h
    refine ⟨rfl, by simp [Interrupted, hst], fun result hres => ?_⟩
    cases hsome : s.result <;> simp_all [poll]
  | cancellationNoticed | deadlineNoticed | graceElapsed =>
    cases h
    refine ⟨rfl, by simp [Interrupted, hst], fun result hres => ?_⟩
    simp only [testCommit] at hres
    split_ifs at hres <;> simp at hres
  | checkingCancellation | checkingGrace =>
    cases h
    refine ⟨rfl, by simp [Interrupted, hst], fun result hres => ?_⟩
    split_ifs at hres
  | checkingDeadline =>
    cases h
    split_ifs <;> exact ⟨rfl, by simp [Interrupted, hst], fun _ => by simp⟩

theorem own_step (hown : s.Own) (h : s.step taken = some next) : next.Own := by
  cases taken with
  | supervise => exact (supervise_frame h).2.2
  | requestCancel | requestDeadline | requestShutdown | cancelRoot =>
    cases h
    exact hown
  | beginNonCancellableCommit =>
    cases h
    unfold beginNonCancellableCommit
    split_ifs <;> exact hown
  | dropCommitGuard =>
    simp only [step] at h
    split_ifs at h
    cases h
    exact hown
  | finish =>
    simp only [step] at h
    split_ifs at h with hn
    cases h
    intro result hst
    simp [hown result hst] at hn

/-- One step: a commit goes on being reported just when the step is taken in time. -/
theorem reported_step (h : s.step taken = some next) :
    next.Reported ↔ s.Reported ∧ s.Timely taken := by
  cases taken with
  | supervise fired =>
    obtain ⟨he, hrun, -⟩ := supervise_frame h
    have hint := supervise_interrupted h
    have hr : s.Reported := fun _ => hrun
    rw [and_iff_right hr, Reported, he, hint]
    simp only [Timely, not_and, forall_exists_index, Bool.not_eq_false]
    exact ⟨fun hall reason hst hc => hall hc reason hst,
      fun hall hc reason hst => hall reason hst hc⟩
  | beginNonCancellableCommit =>
    cases h
    unfold beginNonCancellableCommit
    cases hac : s.commitActive with
    | true => simp [Timely, hac]
    | false =>
      -- now it has been entered, so that it must not have been interrupted
      have hs : Interrupted { s with commitActive := true, entered := true } ↔ s.Interrupted :=
        Iff.rfl
      simp only [Reported, Timely, hac, Bool.false_eq_true, if_false, forall_const, hs]
      exact ⟨fun hno => ⟨fun _ => hno, hno⟩, And.right⟩
  | requestCancel | requestDeadline | requestShutdown | cancelRoot =>
    cases h
    exact (and_iff_left trivial).symm
  | dropCommitGuard | finish =>
    simp only [step] at h
    split_ifs at h
    cases h
    exact (and_iff_left trivial).symm

theorem own_run {steps : List (SupervisionStep ρ)} (hown : s.Own) (h : s.run steps = some next) :
    next.Own := by
  induction steps generalizing s with
  | nil =>
    cases h
    exact hown
  | cons _ _ ih =>
    obtain ⟨_, hstep, hrest⟩ := Option.bind_eq_some_iff.1 h
    exact ih (own_step hown hstep) hrest

theorem reported_run {steps : List (SupervisionStep ρ)} (h : s.run steps = some next) :
    next.Reported ↔ s.Reported ∧ s.TimelyRun steps := by
  induction steps generalizing s with
  | nil =>
    cases h
    exact (and_iff_left trivial).symm
  | cons taken steps ih =>
    obtain ⟨middle, hstep, hrest⟩ := Option.bind_eq_some_iff.1 h
    have hnext : s.TimelyRun (taken :: steps) ↔ s.Timely taken ∧ middle.TimelyRun steps := by
      simp [TimelyRun, hstep]
    rw [ih hrest, reported_step hstep, hnext, and_assoc]

/-- **An entered commit is reported**, with the result of the execution and not as an interruption,
in just the runs whose steps are taken in time, whatever else is requested and whenever. -/
theorem commit_reported_iff (control : OperationControl) (steps : List (SupervisionStep ρ))
    (s : SupervisedExecution ρ) (hrun : (initial control).run steps = some s) :
    ((s.entered = true → ∀ interruption, s.stage ≠ .returned (.error interruption)) ↔
      (initial control : SupervisedExecution ρ).TimelyRun steps) ∧
    ∀ result, s.stage = .returned (.ok result) → s.result = some result := by
  have hinitial : (initial control : SupervisedExecution ρ).Reported :=
    fun hentered => by cases hentered
  refine ⟨?_, own_run (fun _ hstage => by cases hstage) hrun⟩
  rw [← and_iff_right hinitial (b := TimelyRun _ steps), ← reported_run hrun]
  simp [Reported, Interrupted]

/-- A cancellation is noticed while no commit is active, and the handshake begins. -/
def untilHandshake : List (SupervisionStep Unit) :=
  [.requestCancel, .supervise false, .supervise false, .supervise false]

/-- The worker is in its commit when the grace period ends. -/
theorem commit_reported_awaited : ∃ s, (initial (.new false)).run (untilHandshake ++
      [.beginNonCancellableCommit, .supervise false, .supervise true, .supervise false,
        .dropCommitGuard, .finish (), .supervise false]) = some s ∧
    s.entered = true ∧ s.stage = .returned (.ok ()) ∧
    (initial (.new false)).TimelyRun (untilHandshake ++
      [.beginNonCancellableCommit, .supervise false, .supervise true, .supervise false,
        .dropCommitGuard, .finish (), .supervise false]) := by
  refine ⟨_, rfl, rfl, rfl, ?_⟩
  refine (commit_reported_iff (.new false) _ _ rfl).1.1 ?_
  exact fun _ _ hno => by cases hno

/-- The worker has entered its commit and left it before the grace period ends, and is dropped
before it has returned. -/
theorem commit_over_interrupted : ((initial (.new false)).run (untilHandshake ++
      [.beginNonCancellableCommit, .dropCommitGuard, .supervise false, .supervise true,
        .supervise false])).map (fun s => (s.entered, s.stage)) =
    some (true, .returned (.error (localOnlyInterruption .cancelRequested))) := rfl

end SupervisedExecution

end LogosInspector.Operations
