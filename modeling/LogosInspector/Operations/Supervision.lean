import LogosInspector.Operations.Settlement
import LogosInspector.Operations.Supervisor

/-!
# Supervision covers every operation

The invariant of the supervisor, `Inv`, says where every operation is: with the client that starts
it, in the queue, with a task, or in the hands of the reducer, and never in two of these places
(`Placed`). Whoever has it knows enough about it to hand it over: that its workers are idle once the
reducer has waited for them, that an exit calls for a transition after which it is over or waits
for a module, that it is over when it is let go.

The registry takes part only through `RegistryChanged`: whatever is called, operations that are
over stay so, and what ends an operation is a module event or a transition of that operation. So
the actions come down to a few changes of the state, and the invariant is proved for each of these.
-/

namespace LogosInspector.Operations

open Mutation
open Finset (mem_insert_of_mem mem_insert_self)
open Function (update_self update_of_ne)

theorem OperationControl.requestStop_stopReason (control : OperationControl)
    (reason : OperationStopReason) : (control.requestStop reason).stopReason ≠ none := by
  unfold OperationControl.requestStop
  split <;> simp

namespace Supervisor

variable {ext : OperationExternals}

section Invariant

variable (s : Supervisor ext)

/-- The operation is over, or has been removed from the registry. -/
def Over (operationId : Text) : Prop :=
  ∀ record ∈ s.registry.records, record.operation.operationId = operationId →
    record.operation.status.isTerminal = true

/-- The operation waits for a module, or is over. -/
def Waiting (operationId : Text) : Prop :=
  ∀ record ∈ s.registry.records, record.operation.operationId = operationId →
    record.operation.status.isWaiting = true

/-- The operation can be canceled, or it does not matter. -/
def Stops (operationId : Text) : Prop :=
  ∀ record ∈ s.registry.records, record.operation.operationId = operationId → Stoppable record

/-- The blocking workers of the operation are idle and stay so. -/
def Idle (operationId : Text) : Prop :=
  (s.control operationId).acceptingWorkers = false ∧ (s.control operationId).activeWorkers = 0

/-- The workers of the operation are idle, and its cleanup has run. -/
def Quiet (operationId : Text) : Prop := s.Idle operationId ∧ operationId ∈ s.cleaned

def Exited : Prop := ∃ ok, s.reducer = .exited ok

def HasTask (operationId : Text) : Prop :=
  ∃ descriptor ∈ s.descriptors, descriptor.operationId = operationId

def Reduced (operationId : Text) : Prop :=
  ∃ reduction, s.reduction = some reduction ∧ reduction.operationId = operationId

/-- The admission of the operation is held by the reducer's side. -/
def Held (operationId : Text) : Prop :=
  operationId ∈ s.commands ∨ s.HasTask operationId ∨ s.Reduced operationId

/-- Nothing of the operation runs, now or later. -/
def Retired (operationId : Text) : Prop :=
  s.Quiet operationId ∨ (operationId ∉ s.launched ∧
    (s.Exited ∨ (operationId ∉ s.commands ∧ s.clients operationId = none)))

/-- Who has the admission of an operation. -/
inductive Place
  | nowhere
  | client
  | queue
  | task
  | reducer

/-- **Nobody else has it.** -/
structure Placed (clients : Text → Option ClientStage) (commands : List Text)
    (descriptors : Table (fun descriptor : TaskDescriptor => descriptor.taskId))
    (reduction : Option Reduction) (allocated : Finset Text) (place : Text → Place) : Prop where
  client : ∀ operationId, clients operationId ≠ none → place operationId = .client
  queue : ∀ operationId ∈ commands, place operationId = .queue
  task : ∀ descriptor ∈ descriptors, place descriptor.operationId = .task
  reducer : ∀ reduced, reduction = some reduced → place reduced.operationId = .reducer
  unallocated : ∀ operationId ∉ allocated, place operationId = .nowhere

/-- The tasks, their descriptors and the live tasks belong together. -/
structure Linked (tasks : Table (fun task : OperationTask => task.taskId))
    (descriptors : Table (fun descriptor : TaskDescriptor => descriptor.taskId))
    (liveTasks : Table (fun task : LiveOperationTask => task.operationId)) (nextTaskId : ℕ) :
    Prop where
  descriptor : ∀ task ∈ tasks, ∃ descriptor ∈ descriptors, descriptor.taskId = task.taskId ∧
    descriptor.operationId = task.operationId ∧ descriptor.kind = task.kind
  task : ∀ descriptor ∈ descriptors, ∃ task ∈ tasks, task.taskId = descriptor.taskId
  live : ∀ descriptor ∈ descriptors,
    liveTasks.find? descriptor.operationId = some ⟨descriptor.operationId, descriptor.taskId⟩
  owned : ∀ live ∈ liveTasks, ∃ descriptor ∈ descriptors, descriptor.taskId = live.taskId ∧
    descriptor.operationId = live.operationId
  fresh : ∀ descriptor ∈ descriptors, descriptor.taskId < nextTaskId

/-- What is known when a task has exited by itself. -/
def ExitKnown (operationId : Text) (kind : TaskKind) : OperationTaskExit → Prop
  | .execution exitId result => exitId = operationId ∧ kind = .execution ∧
    ∀ message, result = .interrupted ⟨.cancelRequested, .localOnly, message⟩ → s.Stops operationId
  | .external exitId result => exitId = operationId ∧ kind = .external ∧
    (result = .settled → s.Over operationId)

/-- What the reducer knows of the operation in its hands. -/
def ReductionKnown : Reduction → Prop
  | .awaitingIdle joined descriptor =>
    (s.control descriptor.operationId).acceptingWorkers = false ∧
      ∀ exit, joined = .ok exit → s.ExitKnown descriptor.operationId descriptor.kind exit
  | .cleaning joined descriptor => s.Idle descriptor.operationId ∧
    ∀ exit, joined = .ok exit → s.ExitKnown descriptor.operationId descriptor.kind exit
  | .ending change descriptor => s.Quiet descriptor.operationId ∧ change.ends = true
  | .exiting exit descriptor => s.Quiet descriptor.operationId ∧
    s.ExitKnown descriptor.operationId descriptor.kind exit
  | .reading retainExternal descriptor => s.Quiet descriptor.operationId ∧
    s.Waiting descriptor.operationId ∧ (retainExternal = false → s.Over descriptor.operationId)
  | .respawning descriptor => s.Quiet descriptor.operationId ∧ descriptor.kind = .external
  | .finishing descriptor => s.Quiet descriptor.operationId ∧ s.Over descriptor.operationId
  | .drained operationId => operationId ∉ s.launched ∧ s.Over operationId

/-- **The invariant of the supervisor.** -/
structure Inv : Prop where
  placed : ∃ place, Placed s.clients s.commands s.descriptors s.reduction s.allocated place
  nodup : s.commands.Nodup
  linked : Linked s.tasks s.descriptors s.liveTasks s.nextTaskId
  /-- An operation that is admitted and not over is held. -/
  covered : ∀ operationId ∈ s.admitted, s.Over operationId ∨ s.Held operationId
  held : ∀ operationId, s.Held operationId → operationId ∈ s.controls ∧ operationId ∈ s.permits
  client : ∀ operationId, s.clients operationId = some .controlled ∨
    s.clients operationId = some .synchronized →
    operationId ∈ s.permits ∧ (operationId ∈ s.controls ∨ s.Exited)
  permitted : ∀ operationId, s.clients operationId = some .prepared ∨
    s.clients operationId = some .inserted ∨ s.clients operationId = some .started →
    operationId ∈ s.permits
  exits : ∀ task ∈ s.tasks, ∀ exit, task.joined = some (.ok exit) →
    s.ExitKnown task.operationId task.kind exit
  external : ∀ descriptor ∈ s.descriptors, descriptor.kind = .external →
    s.Quiet descriptor.operationId
  reducing : ∀ reduction, s.reduction = some reduction → s.ReductionKnown reduction
  settled : ∀ operationId, operationId ∈ s.settling ∨ (s.control operationId).settled = true →
    s.Over operationId
  stopped : ∀ operationId, operationId ∈ s.canceling ∨
    (s.control operationId).stopReason = some .cancelRequested → s.Stops operationId
  reason : ∀ operationId, (s.control operationId).cancellation = true ∨
    (s.phase ≠ .opened ∧ operationId ∈ s.controls) → (s.control operationId).stopReason ≠ none
  rooted : s.root = true ∨ s.closingRoot = true → s.phase ≠ .opened
  launched : ∀ operationId ∈ s.launched,
    s.Quiet operationId ∨ s.HasTask operationId ∨ s.Reduced operationId
  tasked : ∀ operationId, s.HasTask operationId → operationId ∈ s.launched
  reduced : ∀ reduction, s.reduction = some reduction →
    (∀ operationId, reduction ≠ .drained operationId) → reduction.operationId ∈ s.launched
  sent : ∀ operationId ∈ s.admitted, s.clients operationId = none
  unlaunched : ∀ operationId ∉ s.launched, (s.control operationId).activeWorkers = 0 ∧
    (s.control operationId).fileCreated = false
  early : ∀ operationId, operationId ∈ s.commands ∨ s.clients operationId ≠ none →
    operationId ∉ s.launched
  /-- What is over has been ended by an event, or nothing of it runs. -/
  ended : ∀ record ∈ s.registry.records, record.operation.status.isTerminal = true →
    record.operation.endedByEvent = true ∨ s.Retired record.operation.operationId
  recorded : ∀ record ∈ s.registry.records, record.operation.operationId ∈ s.allocated ∧
    s.clients record.operation.operationId ≠ some .prepared
  unrecorded : ∀ operationId, operationId ∉ s.allocated ∨
    s.clients operationId = some .prepared → operationId ∉ s.canceling ∧
      operationId ∉ s.settling ∧ (s.control operationId).settled = false ∧
      (s.control operationId).stopReason ≠ some .cancelRequested
  allocated : ∀ operationId, operationId ∈ s.admitted ∨ operationId ∈ s.launched →
    operationId ∈ s.allocated
  untouched : ∀ operationId ∉ s.allocated, operationId ∉ s.controls ∧
    s.control operationId = .new false
  unstarted : s.reducer = .unstarted → s.allocated = ∅
  exited : s.Exited → s.commandsClosed = true ∧ s.commands = [] ∧ s.tasks.records = [] ∧
    s.reduction = none
  recovering : s.recovery ≠ .waiting → s.Exited
  recovered : s.recovery ≠ .waiting → s.recovery ≠ .closing → s.phase ≠ .opened
  closed : s.phase = .closed → s.Exited ∨ s.reducer = .unstarted

end Invariant

variable {op : Text}

section Placed

variable {clients clients' : Text → Option ClientStage} {commands commands' : List Text}
  {descriptors descriptors' : Table (fun d : TaskDescriptor => d.taskId)}
  {reduction reduction' : Option Reduction} {allocated allocated' : Finset Text}
  {place : Text → Place} {former : Place}

/-- **An operation changes hands**, and the others stay where they are. -/
theorem Placed.move (latter : Place)
    (h : Placed clients commands descriptors reduction allocated place)
    (hf : place op = former)
    (hcl : ∀ other, clients' other ≠ none → other = op ∧ latter = .client ∨
      clients other ≠ none ∧ (former = .client → other ≠ op))
    (hqueue : ∀ other ∈ commands', other = op ∧ latter = .queue ∨
      other ∈ commands ∧ (former = .queue → other ≠ op))
    (htask : ∀ other ∈ descriptors', other.operationId = op ∧ latter = .task ∨
      other ∈ descriptors ∧ (former = .task → other.operationId ≠ op))
    (hr : ∀ other, reduction' = some other → other.operationId = op ∧ latter = .reducer ∨
      reduction = some other ∧ (former = .reducer → other.operationId ≠ op))
    (hall : ∀ other ∉ allocated', other ∉ allocated ∧ other ≠ op) :
    ∃ place, Placed clients' commands' descriptors' reduction' allocated' place := by
  have hmove : ∀ other, other = op → Function.update place op latter other = latter := by
    rintro _ rfl
    exact update_self ..
  have hs : ∀ other owner, place other = owner → (former = owner → other ≠ op) →
      Function.update place op latter other = owner := by
    intro other owner hown hne
    rw [update_of_ne, hown]
    rintro rfl
    exact hne (hf.symm.trans hown) rfl
  refine ⟨Function.update place op latter, ?_, ?_, ?_, ?_, ?_⟩
  · intro other hsome
    rcases hcl other hsome with ⟨hid, rfl⟩ | ⟨hold, hne⟩
    · exact hmove other hid
    · exact hs other _ (h.client other hold) hne
  · intro other hm
    rcases hqueue other hm with ⟨hid, rfl⟩ | ⟨hold, hne⟩
    · exact hmove other hid
    · exact hs other _ (h.queue other hold) hne
  · intro other hm
    rcases htask other hm with ⟨hid, rfl⟩ | ⟨hold, hne⟩
    · exact hmove _ hid
    · exact hs _ _ (h.task other hold) hne
  · intro other hsome
    rcases hr other hsome with ⟨hid, rfl⟩ | ⟨hold, hne⟩
    · exact hmove _ hid
    · exact hs _ _ (h.reducer other hold) hne
  · intro other hm
    obtain ⟨hold, hne⟩ := hall other hm
    exact hs other _ (h.unallocated other hold) fun _ => hne

end Placed

/-! ### Changes of the registry -/

variable {s : Supervisor ext}

section Registry

variable {P : Text → Prop} {registry : RegistryState ext}

/-- A call has changed the record of an operation, if it has one. -/
def ChangedFor (P : Text → Prop) (before after : RegistryState ext) (operationId : Text) : Prop :=
  ∀ record' ∈ after.records, record'.operation.operationId = operationId →
    ∃ record ∈ before.records, record.operation.operationId = operationId ∧ Changed P record record'

theorem changedFor_of_changed {before after : RegistryState ext}
    (h : RegistryChanged P before after) (op : Text) :
    ChangedFor P before after op := by
  intro _ hm hid
  obtain ⟨r, hr, hfrom⟩ := h.origin hm
  exact ⟨r, hr, hfrom.operationId.symm.trans hid, hfrom⟩

theorem Over.changed (h : s.Over op) (hch : ChangedFor P s.registry registry op) :
    Over { s with registry } op := by
  intro r' hm hid
  obtain ⟨r, hr, hrec, hfrom⟩ := hch r' hm hid
  exact (hfrom.stays (h r hr hrec)).1

theorem Waiting.changed (h : s.Waiting op) (hch : ChangedFor P s.registry registry op) :
    Waiting { s with registry } op := by
  intro r' hm hid
  obtain ⟨r, hr, hrec, hfrom⟩ := hch r' hm hid
  exact hfrom.waiting (h r hr hrec)

theorem Stops.changed (h : s.Stops op) (hch : ChangedFor P s.registry registry op) :
    Stops { s with registry } op := by
  intro r' hm hid
  obtain ⟨r, hr, hrec, hfrom⟩ := hch r' hm hid
  exact (h r hr hrec).changed hfrom

theorem ExitKnown.changed {kind : TaskKind} {exit : OperationTaskExit}
    (h : s.ExitKnown op kind exit)
    (hch : ChangedFor P s.registry registry op) :
    ExitKnown { s with registry } op kind exit := by
  cases exit with
  | execution =>
    exact ⟨h.1, h.2.1, fun msg hres => (h.2.2 msg hres).changed hch⟩
  | external =>
    exact ⟨h.1, h.2.1, fun hres => (h.2.2 hres).changed hch⟩

theorem ReductionKnown.changed {reduction : Reduction} (h : s.ReductionKnown reduction)
    (hch : ChangedFor P s.registry registry reduction.operationId) :
    ReductionKnown { s with registry } reduction := by
  cases reduction with
  | awaitingIdle | cleaning =>
    exact ⟨h.1, fun exit hexit => (h.2 exit hexit).changed hch⟩
  | ending => exact h
  | exiting | finishing | drained => exact ⟨h.1, h.2.changed hch⟩
  | reading =>
    exact ⟨h.1, h.2.1.changed hch, fun hret => (h.2.2 hret).changed hch⟩
  | respawning => exact h

/-- An operation that nobody knows anything of yet. -/
structure Unknown (s : Supervisor ext) (operationId : Text) : Prop where
  admitted : operationId ∉ s.admitted
  task : ¬ s.HasTask operationId
  reduced : ¬ s.Reduced operationId
  settling : operationId ∉ s.settling ∧ (s.control operationId).settled = false
  canceling : operationId ∉ s.canceling ∧ (s.control operationId).stopReason ≠ some .cancelRequested
  recorded : operationId ∈ s.allocated ∧ s.clients operationId ≠ some .prepared

/-- **The registry changes.** An operation of which nothing runs may be ended, and there may be
records of an operation that nobody knows anything of. -/
theorem Inv.evolved (h : s.Inv) (new : Text → Prop)
    (hch : ∀ op, ¬ new op → ChangedFor P s.registry registry op)
    (hP : ∀ op, P op → s.Retired op)
    (hnew : ∀ op, new op → s.Unknown op)
    (hend : ∀ r ∈ registry.records, new r.operation.operationId →
      r.operation.status.isTerminal = true → r.operation.endedByEvent = true) :
    Inv { s with registry } :=
  { h with
    covered := fun op hm =>
      (h.covered op hm).imp_left fun hover =>
        hover.changed (hch _ fun hn => (hnew _ hn).admitted hm)
    exits := by
      intro task hm exit hexit
      obtain ⟨d, hd, -, hid, -⟩ := h.linked.descriptor task hm
      exact (h.exits task hm exit hexit).changed (hch _ fun hn => (hnew _ hn).task ⟨d, hd, hid⟩)
    reducing := fun reduction hreduced => (h.reducing reduction hreduced).changed
      (hch _ fun hn => (hnew _ hn).reduced ⟨reduction, hreduced, rfl⟩)
    settled := by
      refine fun op hset => (h.settled op hset).changed (hch _ fun hn => ?_)
      rcases hset with hsettling | hset
      · exact (hnew _ hn).settling.1 hsettling
      · have hfalse : (s.control op).settled = true := hset
        simp [(hnew _ hn).settling.2] at hfalse
    stopped := by
      refine fun op hstop => (h.stopped op hstop).changed (hch _ fun hn => ?_)
      rcases hstop with hc | hstop
      · exact (hnew _ hn).canceling.1 hc
      · exact (hnew _ hn).canceling.2 hstop
    ended := by
      intro r' hm ht
      by_cases hn : new r'.operation.operationId
      · exact .inl (hend r' hm hn ht)
      · obtain ⟨r, hr, hid, hfrom⟩ := hch _ hn r' hm rfl
        rw [← hid]
        cases hover : r.operation.status.isTerminal with
        | false => exact (hfrom.ended hover ht).imp_right (hP _)
        | true =>
          refine (h.ended r hr hover).imp_left fun hevent => ?_
          unfold RuntimeOperation.endedByEvent at hevent ⊢
          rwa [(hfrom.stays hover).2]
    recorded := by
      intro r' hm
      by_cases hn : new r'.operation.operationId
      · exact (hnew _ hn).recorded
      · obtain ⟨r, hr, hid, -⟩ := hch _ hn r' hm rfl
        rw [← hid]
        exact h.recorded r hr }

/-- The registry changes, without new operations. -/
theorem Inv.changed (h : s.Inv) (hch : RegistryChanged P s.registry registry)
    (hP : ∀ op, P op → s.Retired op) : Inv { s with registry } :=
  h.evolved (fun _ => False) (fun op _ => changedFor_of_changed hch op)
    hP (fun _ hn => hn.elim) (fun _ _ hn => hn.elim)

/-- A change by which only events can end an operation. -/
theorem Inv.gentle (h : s.Inv) (hch : RegistryChanged (fun _ => False) s.registry registry) :
    Inv { s with registry } :=
  h.changed hch fun _ hP => hP.elim

end Registry

/-! ### Changes of the controls -/

section Controls

/-- Whether the registry may have had a record of the operation. -/
def MayHaveRecord (s : Supervisor ext) (operationId : Text) : Prop :=
  operationId ∈ s.allocated ∧ s.clients operationId ≠ some .prepared

/-- **What may happen to the control of an operation.** -/
structure Tightened (s : Supervisor ext) (operationId : Text)
    (control control' : OperationControl) : Prop where
  settled : control'.settled = true → control.settled = true ∨
    (s.Over operationId ∧ s.MayHaveRecord operationId)
  stopped : control'.stopReason = some .cancelRequested →
    control.stopReason = some .cancelRequested ∨ (s.Stops operationId ∧ s.MayHaveRecord operationId)
  reason : control.stopReason ≠ none → control'.stopReason ≠ none
  cancellation : control'.cancellation = true →
    control.cancellation = true ∨ control'.stopReason ≠ none
  idle : control.acceptingWorkers = false → control'.acceptingWorkers = false ∧
    control'.activeWorkers ≤ control.activeWorkers
  unlaunched : operationId ∉ s.launched → control'.activeWorkers ≤ control.activeWorkers ∧
    (control'.fileCreated = true → control.fileCreated = true)
  untouched : operationId ∉ s.allocated → control' = control

theorem Tightened.refl (s : Supervisor ext) (op : Text) (control : OperationControl) :
    s.Tightened op control control :=
  ⟨.inl, .inl, id, .inl, fun h => ⟨h, le_rfl⟩, fun _ => ⟨le_rfl, id⟩, fun _ => rfl⟩

variable {control : Text → OperationControl}

theorem Tightened.quiet (h : s.Tightened op (s.control op) (control op))
    (hquiet : s.Quiet op) : Quiet { s with control } op := by
  obtain ⟨⟨hacc, hac⟩, hc⟩ := hquiet
  obtain ⟨hacc', hact'⟩ := h.idle hacc
  exact ⟨⟨hacc', Nat.le_zero.1 (hact'.trans hac.le)⟩, hc⟩

theorem ReductionKnown.tightened {reduction : Reduction} (hcon : ∀ op,
      s.Tightened op (s.control op) (control op))
    (h : s.ReductionKnown reduction) : ReductionKnown { s with control } reduction := by
  cases reduction with
  | awaitingIdle => exact ⟨((hcon _).idle h.1).1, h.2⟩
  | cleaning =>
    obtain ⟨hacc', hact'⟩ := (hcon _).idle h.1.1
    exact ⟨⟨hacc', Nat.le_zero.1 (hact'.trans h.1.2.le)⟩, h.2⟩
  | ending | exiting | reading | respawning | finishing => exact ⟨(hcon _).quiet h.1, h.2⟩
  | drained => exact h

/-- **The controls change.** -/
theorem Inv.tightened (h : s.Inv) (hcon : ∀ op, s.Tightened op (s.control op) (control op)) :
    Inv { s with control } :=
  { h with
    external := fun d hm hk => (hcon _).quiet (h.external d hm hk)
    reducing := fun reduction hr => (h.reducing reduction hr).tightened hcon
    settled := by
      rintro op (hsettling | hset)
      · exact h.settled op (.inl hsettling)
      · exact ((hcon op).settled hset).elim
          (fun hset => h.settled op (.inr hset)) And.left
    stopped := by
      rintro op (hcanceling | hstop)
      · exact h.stopped op (.inl hcanceling)
      · exact ((hcon op).stopped hstop).elim
          (fun hstop => h.stopped op (.inr hstop)) And.left
    reason := by
      rintro op (hcancellation | hc)
      · exact ((hcon op).cancellation hcancellation).elim
          (fun hcancellation => (hcon op).reason (h.reason op (.inl hcancellation))) id
      · exact (hcon op).reason (h.reason op (.inr hc))
    launched := fun op hm =>
      (h.launched op hm).imp_left (hcon op).quiet
    unlaunched := by
      intro op hm
      obtain ⟨hac, hfile⟩ := h.unlaunched op hm
      obtain ⟨hact', hfile'⟩ := (hcon op).unlaunched hm
      refine ⟨Nat.le_zero.1 (hact'.trans hac.le), ?_⟩
      rw [← Bool.not_eq_true]
      intro hcreated
      simp [hfile' hcreated] at hfile
    ended := fun r hm ht =>
      (h.ended r hm ht).imp_right (Or.imp_left (hcon _).quiet)
    untouched := fun op hf => ⟨(h.untouched op hf).1,
      ((hcon op).untouched hf).trans (h.untouched op hf).2⟩
    unrecorded := by
      intro op hn
      obtain ⟨hcanceling, hsettling, hset, hstop⟩ := h.unrecorded op hn
      have hno : ¬ s.MayHaveRecord op := fun hmay =>
        hn.elim (fun hf => hf hmay.1) fun hpre => hmay.2 hpre
      refine ⟨hcanceling, hsettling, ?_, fun hcancel => ?_⟩
      · rw [← Bool.not_eq_true]
        intro hset'
        rcases (hcon op).settled hset' with hb | hmay
        · simp [hb] at hset
        · exact hno hmay.2
      · rcases (hcon op).stopped hcancel with hb | hmay
        · exact hstop hb
        · exact hno hmay.2 }

/-- The control of one operation changes. -/
theorem Inv.updateControl (h : s.Inv) (change : OperationControl → OperationControl)
    (hc : s.Tightened op (s.control op)
      (change (s.control op))) : (s.updateControl op change).Inv := by
  refine h.tightened fun other => ?_
  by_cases ho : other = op
  · subst ho
    rwa [update_self]
  · rw [update_of_ne ho]
    exact .refl s other _

/-- The controls that the supervisor has change. -/
theorem Inv.updateControls (h : s.Inv) (change : OperationControl → OperationControl)
    (hc : ∀ op ∈ s.controls, s.Tightened op (s.control op)
      (change (s.control op))) : (s.updateControls change).Inv := by
  refine h.tightened fun op => ?_
  split_ifs with hm
  · exact hc op hm
  · exact .refl s op _

theorem tightened_requestStop (control : OperationControl) {reason : OperationStopReason}
    (hr : reason ≠ .cancelRequested) (hall : op ∈ s.allocated) :
    s.Tightened op control (control.requestStop reason) := by
  have hstop := control.requestStop_stopReason reason
  have hnot : (control.requestStop reason).stopReason ≠ some .cancelRequested := by
    unfold OperationControl.requestStop
    split
    · simp
    · simp
    · simpa using hr
  exact ⟨.inl, fun hc => absurd hc hnot, fun _ => hstop, fun _ => .inr hstop,
    fun hacc => ⟨hacc, le_rfl⟩, fun _ => ⟨le_rfl, id⟩,
    fun hfresh => absurd hall hfresh⟩

theorem tightened_requestCancel (control : OperationControl) (hstops : s.Stops op)
    (hmay : s.MayHaveRecord op) :
    s.Tightened op control control.requestCancel := by
  have hstop : control.requestCancel.stopReason ≠ none := by
    unfold OperationControl.requestCancel
    cases control.stopReason <;> simp
  exact ⟨.inl, fun _ => .inr ⟨hstops, hmay⟩, fun _ => hstop, fun _ => .inr hstop,
    fun hacc => ⟨hacc, le_rfl⟩, fun _ => ⟨le_rfl, id⟩,
    fun hfresh => absurd hmay.1 hfresh⟩

/-- Everything that the supervisor has the control of is told to stop. -/
theorem Inv.requestShutdown (h : s.Inv) : (s.updateControls .requestShutdown).Inv := by
  refine h.updateControls _ fun op hm => tightened_requestStop _ (by simp) ?_
  by_contra hfresh
  exact (h.untouched op hfresh).1 hm

end Controls

/-! ### Clients -/

section Clients

variable {s' : Supervisor ext} {readings : Readings ext} {u : Unit}

section

variable (h : s.Inv)

include h

/-- **A client goes on.** -/
theorem Inv.setClient {stage : Option ClientStage}
    (hcl : s.clients op ≠ none) (hpre : stage ≠ some .prepared)
    (hcon : stage = some .controlled ∨ stage = some .synchronized →
      op ∈ s.permits ∧ (op ∈ s.controls ∨ s.Exited))
    (hp : stage = some .inserted ∨ stage = some .started → op ∈ s.permits) :
    (s.setClient op stage).Inv := by
  have ho : ∀ other, (s.setClient op stage).clients other ≠ none → s.clients other ≠ none := by
    intro other hsome
    by_cases hid : other = op
    · exact hid ▸ hcl
    · simpa only [Supervisor.setClient, update_of_ne hid] using hsome
  have hstage : ∀ other st, (s.setClient op stage).clients other = some st →
      (other = op ∧ stage = some st) ∨ s.clients other = some st := by
    intro other _ hst
    by_cases hid : other = op
    · subst hid
      exact .inl ⟨rfl, by simpa only [Supervisor.setClient, update_self] using hst⟩
    · exact .inr (by simpa only [Supervisor.setClient, update_of_ne hid] using hst)
  exact
    { h with
      placed := by
        obtain ⟨place, hplace⟩ := h.placed
        exact ⟨place, { hplace with
          client := fun other hsome => hplace.client other (ho other hsome) }⟩
      client := by
        rintro other (hst | hst) <;> rcases hstage other _ hst with ⟨rfl, hnew⟩ | hold
        · exact hcon (.inl hnew)
        · exact h.client other (.inl hold)
        · exact hcon (.inr hnew)
        · exact h.client other (.inr hold)
      permitted := by
        rintro other (hst | hst | hst) <;> rcases hstage other _ hst with ⟨rfl, hnew⟩ | hold
        · exact absurd hnew hpre
        · exact h.permitted other (.inl hold)
        · exact hp (.inl hnew)
        · exact h.permitted other (.inr (.inl hold))
        · exact hp (.inr hnew)
        · exact h.permitted other (.inr (.inr hold))
      sent := by
        intro other hm
        by_contra hsome
        exact ho other hsome (h.sent other hm)
      early := by
        rintro other (hqueue | hsome)
        · exact h.early other (.inl hqueue)
        · exact h.early other (.inr (ho other hsome))
      ended := by
        intro r hm ht
        refine (h.ended r hm ht).imp_right (Or.imp_right fun hret => ?_)
        refine ⟨hret.1, hret.2.imp_right fun hnow => ⟨hnow.1, ?_⟩⟩
        by_contra hsome
        exact ho _ hsome hnow.2
      recorded := by
        intro r hm
        refine ⟨(h.recorded r hm).1, fun hst => ?_⟩
        rcases hstage _ _ hst with ⟨-, hst⟩ | hst
        · exact hpre hst
        · exact (h.recorded r hm).2 hst
      unrecorded := by
        rintro other (hfresh | hst)
        · exact h.unrecorded other (.inl hfresh)
        · rcases hstage other _ hst with ⟨-, hst⟩ | hst
          · exact absurd hst hpre
          · exact h.unrecorded other (.inr hst) }

/-- A permit is given back that neither the reducer's side nor a client needs. -/
theorem Inv.release (hheld : ¬ s.Held op) (hcl : ∀ stage, s.clients op = some stage →
      stage = .uncontrolled ∨ stage = .unrecorded) : (s.release op).Inv := by
  have hkeep : ∀ other, other ≠ op → other ∈ s.permits → other ∈ (s.release op).permits :=
    fun other hne hm => Finset.mem_erase.2 ⟨hne, hm⟩
  exact
    { h with
      held := fun other ho => ⟨(h.held other ho).1,
        hkeep other (fun hid => hheld (hid ▸ ho)) (h.held other ho).2⟩
      client := by
        intro other hst
        refine ⟨hkeep other ?_ (h.client other hst).1, (h.client other hst).2⟩
        rintro rfl
        rcases hst with hst | hst <;> rcases hcl _ hst with hno | hno <;> cases hno
      permitted := by
        intro other hst
        refine hkeep other ?_ (h.permitted other hst)
        rintro rfl
        rcases hst with hst | hst | hst <;> rcases hcl _ hst with hno | hno <;> cases hno }

/-- What a client has is not held by the reducer's side. -/
theorem Inv.not_held (hcl : s.clients op ≠ none) : ¬ s.Held op := by
  obtain ⟨_, hplace⟩ := h.placed
  have hp := hplace.client op hcl
  rintro (hqueue | ⟨d, hm, rfl⟩ | ⟨reduction, hr, rfl⟩)
  · cases hp.symm.trans (hplace.queue op hqueue)
  · cases hp.symm.trans (hplace.task d hm)
  · cases hp.symm.trans (hplace.reducer reduction hr)

theorem Inv.allocated_of_client (hcl : s.clients op ≠ none) : op ∈ s.allocated := by
  obtain ⟨_, hplace⟩ := h.placed
  by_contra hfresh
  cases (hplace.client op hcl).symm.trans (hplace.unallocated op hfresh)

theorem Inv.allocated_of_held (hheld : s.Held op) : op ∈ s.allocated := by
  by_contra hfresh
  exact (h.untouched op hfresh).1 (h.held op hheld).1

/-- **The reducer changes its mode.** -/
theorem Inv.setReducer (mode : ReducerMode) (hmode : mode ≠ .unstarted)
    (hkeep : s.Exited → ∃ ok, mode = .exited ok)
    (hexit : (∃ ok, mode = .exited ok) → s.commandsClosed = true ∧ s.commands = [] ∧
      s.tasks.records = [] ∧ s.reduction = none)
    (hc : s.phase = .closed → ∃ ok, mode = .exited ok) : Inv { s with reducer := mode } :=
  { h with
    client := fun other hst => ⟨(h.client other hst).1, (h.client other hst).2.imp_right hkeep⟩
    ended := fun r hm ht => (h.ended r hm ht).imp_right
      (Or.imp_right fun hret => ⟨hret.1, hret.2.imp_left hkeep⟩)
    unstarted := fun hu => absurd hu hmode
    exited := hexit
    recovering := fun hrec => hkeep (h.recovering hrec)
    closed := fun hphase => .inl (hc hphase) }

/-- The reducer is started. -/
theorem Inv.startReducer (hphase : s.phase = .opened) :
    Inv { s with
      controller := .running
      reducer := if s.reducer = ReducerMode.unstarted then .running else s.reducer } := by
  have hmode : (if s.reducer = ReducerMode.unstarted then ReducerMode.running else s.reducer) ≠
      .unstarted := by
    split_ifs with hu
    · simp
    · exact hu
  have hexit : ∀ ok, (if s.reducer = ReducerMode.unstarted then ReducerMode.running
      else s.reducer) = .exited ok ↔ s.reducer = .exited ok := by
    intro ok
    split_ifs with hu
    · simp [hu]
    · rfl
  have hs := h.setReducer _ hmode (fun ⟨ok, hok⟩ => ⟨ok, (hexit ok).2 hok⟩)
    (fun ⟨ok, hok⟩ => h.exited ⟨ok, (hexit ok).1 hok⟩)
    fun hc => absurd (hphase.symm.trans hc) (by simp)
  exact { hs with }

/-- A client gets an id and a permit. -/
theorem Inv.allocate (hf : op ∉ s.allocated) (hr : s.reducer ≠ .unstarted) :
    Inv { s with
      permits := Insert.insert op s.permits
      clients := Function.update s.clients op (some .prepared)
      allocated := Insert.insert op s.allocated } := by
  obtain ⟨place, hplace⟩ := h.placed
  have hnow := hplace.unallocated op hf
  have ho : ∀ other, other ≠ op →
      Function.update s.clients op (some .prepared) other = s.clients other :=
    fun other hne => update_of_ne hne _ _
  have hstage : ∀ other st, Function.update s.clients op (some .prepared) other = some st →
      st ≠ .prepared → s.clients other = some st := by
    intro other _ hst hne
    by_cases hid : other = op
    · subst hid
      rw [update_self] at hst
      exact absurd (Option.some.inj hst).symm hne
    · rwa [ho other hid] at hst
  exact
    { h with
      placed := hplace.move .client hnow
        (fun other hsome => by
          by_cases hid : other = op
          · exact .inl ⟨hid, rfl⟩
          · exact .inr ⟨fun hn => hsome ((ho other hid).trans hn), by simp⟩)
        (fun _ hm => .inr ⟨hm, by simp⟩) (fun _ hm => .inr ⟨hm, by simp⟩)
        (fun _ hsome => .inr ⟨hsome, by simp⟩)
        fun other hm => ⟨fun hold => hm (mem_insert_of_mem hold),
          fun hid => hm (hid ▸ mem_insert_self _ _)⟩
      held := fun other hheld =>
        ⟨(h.held other hheld).1, mem_insert_of_mem (h.held other hheld).2⟩
      client := by
        intro other hst
        have hst' : s.clients other = some .controlled ∨ s.clients other = some .synchronized :=
          hst.imp (hstage other _ · (by simp)) (hstage other _ · (by simp))
        exact ⟨mem_insert_of_mem (h.client other hst').1, (h.client other hst').2⟩
      permitted := by
        intro other hst
        by_cases hid : other = op
        · exact hid ▸ mem_insert_self _ _
        · dsimp only at hst
          rw [ho other hid] at hst
          exact mem_insert_of_mem (h.permitted other hst)
      sent := fun other hm =>
        (ho other fun hid => hf (hid ▸ h.allocated other (.inl hm))).trans (h.sent other hm)
      early := by
        rintro other (hm | hsome)
        · exact h.early other (.inl hm)
        · by_cases hid : other = op
          · exact fun hl => hf (hid ▸ h.allocated other (.inr hl))
          · exact h.early other (.inr fun hn => hsome ((ho other hid).trans hn))
      ended := by
        intro r hm ht
        have hne : r.operation.operationId ≠ op :=
          fun hid => hf (hid ▸ (h.recorded r hm).1)
        refine (h.ended r hm ht).imp_right (Or.imp_right fun hret => ?_)
        refine ⟨hret.1, hret.2.imp_right fun hn => ⟨hn.1, ?_⟩⟩
        exact (ho _ hne).trans hn.2
      recorded := by
        intro r hm
        have hne : r.operation.operationId ≠ op :=
          fun hid => hf (hid ▸ (h.recorded r hm).1)
        refine ⟨mem_insert_of_mem (h.recorded r hm).1, ?_⟩
        dsimp only
        rw [ho _ hne]
        exact (h.recorded r hm).2
      unrecorded := by
        intro other hn
        by_cases hid : other = op
        · exact h.unrecorded other (.inl (hid ▸ hf))
        · refine h.unrecorded other (hn.imp (fun hm hold => ?_) fun hst => ?_)
          · exact hm (mem_insert_of_mem hold)
          · exact (ho other hid).symm.trans hst
      allocated := fun other hm => mem_insert_of_mem (h.allocated other hm)
      untouched := fun other hm =>
        h.untouched other fun hold => hm (mem_insert_of_mem hold)
      unstarted := fun hu => absurd hu hr }

/-- The supervisor gets a control. -/
theorem Inv.insertControl (hphase : s.phase = .opened) (hall : op ∈ s.allocated) :
    Inv { s with controls := Insert.insert op s.controls } :=
  { h with
    held := fun other hheld =>
      ⟨mem_insert_of_mem (h.held other hheld).1, (h.held other hheld).2⟩
    client := fun other hst =>
      ⟨(h.client other hst).1, (h.client other hst).2.imp_left mem_insert_of_mem⟩
    reason := by
      rintro other (hc | hclosing)
      · exact h.reason other (.inl hc)
      · exact absurd hphase hclosing.1
    untouched := by
      intro other hfresh
      refine ⟨fun hm => ?_, (h.untouched other hfresh).2⟩
      rcases Finset.mem_insert.1 hm with rfl | hm
      · exact hfresh hall
      · exact (h.untouched other hfresh).1 hm }

/-- The supervisor lets a control go that nobody needs. -/
theorem Inv.eraseControl (hheld : ¬ s.Held op)
    (hcl : s.clients op ≠ some .controlled ∧ s.clients op ≠ some .synchronized) :
    Inv { s with controls := s.controls.erase op } :=
  { h with
    held := fun other ho => ⟨Finset.mem_erase.2
      ⟨fun hid => hheld (hid ▸ ho), (h.held other ho).1⟩, (h.held other ho).2⟩
    client := by
      intro other hst
      refine ⟨(h.client other hst).1, (h.client other hst).2.imp_left fun hm => ?_⟩
      refine Finset.mem_erase.2 ⟨?_, hm⟩
      rintro rfl
      exact hst.elim hcl.1 hcl.2
    reason := fun other hr => h.reason other
      (hr.imp_right fun hc => ⟨hc.1, Finset.mem_of_mem_erase hc.2⟩)
    untouched := fun other hfresh =>
      ⟨fun hm => (h.untouched other hfresh).1 (Finset.mem_of_mem_erase hm),
        (h.untouched other hfresh).2⟩ }

theorem inv_prepare {disposableFile : Bool}
    (hok : prepare op disposableFile s = .ok u s') : s'.Inv := by
  obtain ⟨⟨hphase, -, -, -, hfresh⟩, rfl⟩ := guarded_set_eq_ok.1 hok
  have hcon : s.control op = .new false := (h.untouched op hfresh).2
  have hstart := h.startReducer hphase
  have hall := hstart.allocate hfresh (by
    split_ifs with hr
    · simp
    · exact hr)
  refine hall.updateControl (fun _ => .new disposableFile) ?_
  refine ⟨nofun, nofun, fun hreason => ?_, nofun, fun hacc => ?_, fun _ => ⟨?_, nofun⟩,
    fun hm => absurd (mem_insert_self _ _) hm⟩
  · exact absurd (congrArg (·.stopReason) hcon) hreason
  · have hacc' : (s.control op).acceptingWorkers = false := hacc
    rw [hcon] at hacc'
    cases hacc'
  · exact Nat.zero_le _

end

variable {request : RuntimeOperationRequest ext} {now : ℕ}

variable (h : s.Inv)

include h

/-- A client puts a record in, or fails to. -/
theorem Inv.inserted {registry : RegistryState ext} (hu : s.Unknown op)
    (hn : ∀ r ∈ s.registry.records, r.operation.operationId ≠ op)
    (he : StateEvolves (Changed fun _ => False)
      (runningRuntimeOperationRecord op request now = ·) s.registry registry) :
    Inv { s with registry } := by
  refine h.evolved (P := fun _ => False) (· = op) (fun other hne r' hm hid => ?_)
    (fun _ hP => hP.elim) (fun _ ho => ho ▸ hu) fun r' hm hid ht => ?_
  · obtain ⟨r, hr | rfl, hfrom⟩ := he r' hm
    · exact ⟨r, hr, hfrom.operationId.symm.trans hid, hfrom⟩
    · exact absurd (hid.symm.trans hfrom.operationId) hne
  · obtain ⟨r, hr | rfl, hfrom⟩ := he r' hm
    · exact absurd (hfrom.operationId.symm.trans hid) (hn r hr)
    · exact (hfrom.ended rfl ht).resolve_right id

theorem inv_insertRecord (hok : insertRecord readings op request now s = .ok u s') : s'.Inv := by
  obtain ⟨hpre, hok⟩ := guarded_eq_ok.1 hok
  have hcl : s.clients op ≠ none := by simp [hpre]
  have hheld := h.not_held hcl
  have hn : ∀ r ∈ s.registry.records, r.operation.operationId ≠ op := by
    rintro r hm rfl
    exact (h.recorded r hm).2 hpre
  obtain ⟨hcanceling, hsettling, hset, hstop⟩ := h.unrecorded op (.inr hpre)
  have hu : ∀ stage, stage ≠ some .prepared → (s.setClient op stage).Unknown op := by
    refine fun stage hst => ⟨fun hm => hcl (h.sent op hm),
      fun htask => hheld (.inr (.inl htask)), fun hr => hheld (.inr (.inr hr)),
      ⟨hsettling, hset⟩, ⟨hcanceling, hstop⟩, h.allocated_of_client hcl, ?_⟩
    simpa only [Supervisor.setClient, update_self] using hst
  have he := insert_changed (fun _ => False) readings op request now s.registry
  cases hi : Operations.insert readings
      (runningRuntimeOperationRecord op request now) s.registry with
  | ok _ _ =>
    rw [hi] at hok
    rw [← set_eq_ok.1 hok]
    have hc' : (s.setClient op (some .inserted)).Inv :=
      h.setClient hcl (by simp) (by simp) fun _ => h.permitted op (.inl hpre)
    exact hc'.inserted (hu _ (by simp)) hn (he.of_ok hi)
  | error _ _ =>
    rw [hi] at hok
    rw [← set_eq_ok.1 hok]
    have hc' : (s.setClient op none).Inv :=
      h.setClient hcl (by simp) (by simp) (by simp)
    refine (hc'.inserted (hu _ (by simp)) hn (he.of_error hi)).release
      (fun hheld' => hheld hheld') fun _ hst => ?_
    simp [Supervisor.setClient] at hst

theorem inv_startRecord (hok : startRecord readings op s = .ok u s') : s'.Inv := by
  simp only [startRecord, onRegistry, bind_ok_iff, get_eq_ok,
    enabled_eq_ok, zoom_eq_ok, modify_eq_ok] at hok
  obtain ⟨_, _, ⟨rfl, rfl⟩, _, _, ⟨hi, rfl⟩, _, _, ⟨registry, hc, rfl⟩, rfl⟩ := hok
  refine (h.gentle (transition_changed hc (.inl rfl))).setClient ?_ (by simp) (by simp) fun _ => ?_
  · simp [hi]
  · exact h.permitted op (.inr (.inl hi))

theorem inv_admit (hok : admitOperation op s = .ok u s') : s'.Inv := by
  obtain ⟨hstart, hok⟩ := guarded_eq_ok.1 hok
  have hcl : s.clients op ≠ none := by simp [hstart]
  split_ifs at hok with hopen
  · rw [← set_eq_ok.1 hok]
    refine (h.insertControl hopen.1 (h.allocated_of_client hcl)).setClient hcl (by simp)
      (fun _ => ⟨h.permitted op (.inr (.inr hstart)), .inl ?_⟩) (by simp)
    exact mem_insert_self _ _
  · rw [← set_eq_ok.1 hok]
    refine (h.setClient hcl (by simp) (by simp) (by simp)).release
      (fun hheld => h.not_held hcl hheld) fun _ hst => ?_
    simp only [Supervisor.setClient, update_self, Option.some.injEq] at hst
    exact .inr hst.symm

theorem inv_synchronizeAdmittedControl
    (hok : synchronizeAdmittedControl readings op s = .ok u s') : s'.Inv := by
  simp only [synchronizeAdmittedControl, onRegistry, bind_ok_iff, get_eq_ok, enabled_eq_ok] at hok
  obtain ⟨_, _, ⟨rfl, rfl⟩, _, _, ⟨hcontrolled, rfl⟩, hok⟩ := hok
  have hcl : s.clients op ≠ none := by simp [hcontrolled]
  have hp := h.client op (.inl hcontrolled)
  have hall := h.allocated_of_client hcl
  split_ifs at hok with hcon hphase
  · rw [← set_eq_ok.1 hok]
    have hstop := h.updateControl (.requestStop .shutdown) (tightened_requestStop _ (by simp) hall)
    exact hstop.setClient hcl (by simp) (fun _ => hp) (by simp)
  · simp only [bind_ok_iff, zoom_eq_ok] at hok
    obtain ⟨records, _, ⟨registry, hi, rfl⟩, hok⟩ := hok
    have hs := h.gentle (inspect_changed hi)
    cases hf : records.find? op with rw [hf] at hok
    | none =>
      rw [← modify_eq_ok.1 hok]
      exact hs.setClient hcl (by simp) (by simp) (by simp)
    | some _ =>
      dsimp only at hok
      split_ifs at hok with hcanceling
      · obtain ⟨_, _, rfl, rfl⟩ := hok
        have hstops : Stops { s with registry } op := by
          intro _ hm hid
          obtain ⟨hr, hrec⟩ := Table.find?_eq_some.1 hf
          have heq := Table.eq_of_key_eq (inspect_records hi ▸ hm) hr (hid.trans hrec.symm)
          exact .inr (.inl (heq ▸ hcanceling))
        have hc := hs.updateControl .requestCancel
          (tightened_requestCancel _ hstops ⟨hall, by simp [hcontrolled]⟩)
        exact hc.setClient hcl (by simp) (fun _ => hp) (by simp)
      · rw [← modify_eq_ok.1 hok]
        exact hs.setClient hcl (by simp) (fun _ => hp) (by simp)
  · rw [← set_eq_ok.1 hok]
    exact h.setClient hcl (by simp) (by simp) (by simp)

/-- **An admission is sent**: the client hands it over to the queue. -/
theorem Inv.enqueue (hcl : s.clients op = some .synchronized) (hcm : s.commandsClosed = false) :
    Inv ({ s with
      commands := s.commands ++ [op]
      admitted := Insert.insert op s.admitted }.setClient op none) := by
  obtain ⟨place, hplace⟩ := h.placed
  have hsome : s.clients op ≠ none := by simp [hcl]
  have hu := h.not_held hsome
  have hrun : ¬ s.Exited := fun hexit => by simp [(h.exited hexit).1] at hcm
  have hp := h.client op (.inr hcl)
  have ho : ∀ other, Function.update s.clients op none other ≠ none →
      other ≠ op ∧ s.clients other ≠ none := by
    intro other hst
    have hne : other ≠ op := by
      rintro rfl
      exact hst (update_self ..)
    exact ⟨hne, by rwa [update_of_ne hne] at hst⟩
  have hs : ∀ other st, Function.update s.clients op none other = some st →
      s.clients other = some st := by
    intro other _ hst
    obtain ⟨hne, -⟩ := ho other (by simp [hst])
    rwa [update_of_ne hne] at hst
  have hq : ∀ other, other ∈ s.commands ++ [op] → other ∈ s.commands ∨ other = op := by simp
  have hqueue : ∀ other ∈ s.commands, other ∈ s.commands ++ [op] :=
    fun other hm => List.mem_append_left _ hm
  exact
    { h with
      placed := hplace.move .queue (hplace.client op hsome)
        (fun other hst => .inr ⟨(ho other hst).2, fun _ => (ho other hst).1⟩)
        (fun other hm => (hq other hm).symm.imp (fun hid => ⟨hid, rfl⟩) fun hm => ⟨hm, by simp⟩)
        (fun _ hm => .inr ⟨hm, by simp⟩) (fun _ hsome => .inr ⟨hsome, by simp⟩)
        fun _ hfresh => ⟨hfresh, by rintro rfl; exact hfresh (h.allocated_of_client hsome)⟩
      nodup := h.nodup.append (List.nodup_singleton _) (by
        simpa using fun hm => hu (.inl hm))
      covered := by
        intro other hm
        rcases Finset.mem_insert.1 hm with rfl | hm
        · exact .inr (.inl (by simp [Supervisor.setClient]))
        · exact (h.covered other hm).imp_right (Or.imp_left (hqueue other))
      held := by
        rintro other (hm | hheld)
        · rcases hq other hm with hm | rfl
          · exact h.held other (.inl hm)
          · exact ⟨hp.2.resolve_right hrun, hp.1⟩
        · exact h.held other (.inr hheld)
      client := fun other hst => h.client other (hst.imp (hs other _) (hs other _))
      permitted := fun other hst =>
        h.permitted other (hst.imp (hs other _) (Or.imp (hs other _) (hs other _)))
      sent := by
        intro other hm
        by_contra hst
        obtain ⟨hne, hst⟩ := ho other hst
        exact hst (h.sent other (Finset.mem_of_mem_insert_of_ne hm hne))
      early := by
        rintro other (hm | hst)
        · rcases hq other hm with hm | rfl
          · exact h.early other (.inl hm)
          · exact h.early other (.inr hsome)
        · exact h.early other (.inr (ho other hst).2)
      ended := by
        intro r hm ht
        refine (h.ended r hm ht).imp_right (Or.imp_right fun hret => ?_)
        obtain ⟨hqueue', hn⟩ := hret.2.resolve_left hrun
        have hne : r.operation.operationId ≠ op :=
          fun hid => hsome (hid ▸ hn)
        refine ⟨hret.1, .inr ⟨fun hm => ?_, (update_of_ne hne ..).trans hn⟩⟩
        exact (hq _ hm).elim hqueue' hne
      recorded := fun r hm =>
        ⟨(h.recorded r hm).1, fun hst => (h.recorded r hm).2 (hs _ _ hst)⟩
      unrecorded := fun other hn => h.unrecorded other (hn.imp_right (hs other _))
      allocated := by
        rintro other (hm | hm)
        · rcases Finset.mem_insert.1 hm with rfl | hm
          · exact h.allocated_of_client hsome
          · exact h.allocated other (.inl hm)
        · exact h.allocated other (.inr hm)
      exited := fun hexit => absurd hexit hrun }

theorem inv_send (hok : send op s = .ok u s') : s'.Inv := by
  obtain ⟨⟨hcl, hcm, -⟩, rfl⟩ := guarded_set_eq_ok.1 hok
  exact h.enqueue hcl hcm

theorem inv_failToSend (hok : failToSend op s = .ok u s') : s'.Inv := by
  obtain ⟨hcl, rfl⟩ := guarded_set_eq_ok.1 hok
  exact h.setClient (by simp [hcl]) (by simp) (by simp) (by simp)

theorem inv_removeControl (hok : removeControl op s = .ok u s') : s'.Inv := by
  obtain ⟨hcl, rfl⟩ := guarded_set_eq_ok.1 hok
  have hsome : s.clients op ≠ none := by simp [hcl]
  have hu := h.not_held hsome
  have hcon := h.eraseControl hu ⟨by simp [hcl], by simp [hcl]⟩
  refine (hcon.setClient hsome (by simp) (by simp) (by simp)).release (fun hheld => hu hheld)
    fun _ hst => .inr ?_
  simp only [Supervisor.setClient, update_self, Option.some.injEq] at hst
  exact hst.symm

theorem inv_removeRecord (hok : removeRecord op s = .ok u s') : s'.Inv := by
  simp only [removeRecord, onRegistry, bind_ok_iff, get_eq_ok,
    enabled_eq_ok, zoom_eq_ok, modify_eq_ok] at hok
  obtain ⟨_, _, ⟨rfl, rfl⟩, _, _, ⟨hcl, rfl⟩, _, _, ⟨registry, hr, rfl⟩, rfl⟩ := hok
  exact (h.gentle (remove_changed hr)).setClient (by simp [hcl]) (by simp) (by simp) (by simp)

end Clients

end Supervisor

end LogosInspector.Operations
