import LogosInspector.Operations.Reducer

/-!
# Shutting down

A shutdown closes the supervisor, ends what is still in the queue, waits for the tasks and, if the
reducer has failed, ends whatever has been left behind. All of this keeps the invariant, which with
the actions of the other parties gives the result on supervision: every operation that is admitted
and not over is in one place, its control and its permit are kept as long, and once the supervisor
is closed there is no such operation.
-/

namespace LogosInspector.Operations

open Mutation

namespace Supervisor

variable {ext : OperationExternals} {s s' : Supervisor ext} {op : Text}
  {readings : Readings ext} {u : Unit}

section Closing

variable (h : s.Inv)

include h

/-- The supervisor is closed, and what it has the control of is told to stop. -/
theorem Inv.closing (phase : SupervisorPhase) (hphase : phase ≠ .opened)
    (hc : phase = .closed → s.phase = .closed) (root closingRoot : Bool) :
    Inv { s.updateControls .requestShutdown with phase, root, closingRoot } := by
  have hs := h.requestShutdown
  exact
    { hs with
      reason := by
        rintro other (hcancellation | ⟨-, hm⟩)
        · exact hs.reason other (.inl hcancellation)
        · have hmem' : other ∈ s.controls := hm
          simp only [Supervisor.updateControls, if_pos hmem']
          exact OperationControl.requestStop_stopReason _ _
      rooted := fun _ => hphase
      recovered := fun _ _ => hphase
      closed := fun hphase => h.closed (hc hphase) }

theorem Inv.failCloseSupervisor : s.failCloseSupervisor.Inv := by
  refine h.closing (if s.phase = .closed then .closed else .closing) ?_ ?_ true s.closingRoot
  · split_ifs <;> simp
  · split_ifs with hc <;> simp [hc]

theorem inv_startShutdown (hok : startShutdown s = .ok u s') : s'.Inv := by
  obtain ⟨⟨hr, -⟩, rfl⟩ := guarded_set_eq_ok.1 hok
  have hrun : ¬ s.Exited := by simp [Exited, hr]
  refine h.requestShutdown.setReducer _ (by simp) (fun hexit => absurd hexit hrun) (by simp)
    fun hc => ?_
  exact (h.closed hc).elim (fun hexit => absurd hexit hrun) fun hu => by
    cases hr.symm.trans hu

theorem inv_closeCommands (hok : closeCommands s = .ok u s') : s'.Inv := by
  obtain ⟨-, rfl⟩ := guarded_set_eq_ok.1 hok
  exact { h with exited := fun hexit => ⟨rfl, (h.exited hexit).2⟩ }

theorem inv_closeAfterFailure (hok : closeAfterFailure s = .ok u s') : s'.Inv := by
  obtain ⟨hr, rfl⟩ := guarded_set_eq_ok.1 hok
  have hrun : ¬ s.Exited := by simp [Exited, hr]
  have hs := h.failCloseSupervisor.setReducer .failing (by simp)
    (fun hexit => absurd hexit hrun) (by simp) fun hc =>
      (h.failCloseSupervisor.closed hc).elim (fun hexit => absurd hexit hrun)
        fun hu => by cases hr.symm.trans hu
  exact { hs with exited := fun hexit => ⟨rfl, (hs.exited hexit).2⟩ }

theorem inv_beginClose (hok : beginClose s = .ok u s') : s'.Inv := by
  obtain ⟨-, rfl⟩ := guarded_set_eq_ok.1 hok
  exact h.closing _ (by simp) (by simp) s.root true

theorem inv_cancelRoot (hok : cancelRoot s = .ok u s') : s'.Inv := by
  obtain ⟨hc, rfl⟩ := guarded_set_eq_ok.1 hok
  exact { h with rooted := fun _ => h.rooted (.inr hc) }

theorem inv_takeController (hok : takeController s = .ok u s') : s'.Inv := by
  obtain ⟨-, rfl⟩ := guarded_set_eq_ok.1 hok
  exact { h with }

theorem inv_exitReducer (hok : exitReducer s = .ok u s') : s'.Inv := by
  obtain ⟨⟨-, hc, hcm, htask, hr⟩, rfl⟩ := guarded_set_eq_ok.1 hok
  exact h.setReducer _ (by simp) (fun _ => ⟨_, rfl⟩)
    (fun _ => ⟨hc, hcm, htask, Option.isNone_iff_eq_none.1 hr⟩) fun _ => ⟨_, rfl⟩

end Closing

/-! ### What is left in the queue -/

/-- The reducer receives an admission that it will not launch. The operation does not count as
admitted while it is in nobody's hands. -/
theorem Inv.dequeue (h : s.Inv) {commands : List Text} (hcm : s.commands = op :: commands) :
    Inv { s with commands, admitted := s.admitted.erase op } := by
  have hrest : ∀ other ∈ commands, other ∈ s.commands := fun other hm => by simp [hcm, hm]
  have hnodup := h.nodup
  rw [hcm, List.nodup_cons] at hnodup
  exact
    { h with
      placed := by
        obtain ⟨place, hplace⟩ := h.placed
        exact ⟨place, { hplace with queue := fun other hm => hplace.queue other (hrest other hm) }⟩
      nodup := hnodup.2
      covered := by
        intro other hm
        obtain ⟨hne, hm⟩ := Finset.mem_erase.1 hm
        refine (h.covered other hm).imp_right (Or.imp_left fun hqueue => ?_)
        rw [hcm] at hqueue
        exact List.mem_of_ne_of_mem hne hqueue
      held := fun other hheld => h.held other (hheld.imp_left (hrest other))
      sent := fun other hm => h.sent other (Finset.mem_of_mem_erase hm)
      early := fun other hearly => h.early other (hearly.imp_left (hrest other))
      ended := fun r hm ht => (h.ended r hm ht).imp_right
        (Or.imp_right fun hret => ⟨hret.1, hret.2.imp_right fun hnow =>
          ⟨fun hqueue => hnow.1 (hrest _ hqueue), hnow.2⟩⟩)
      allocated := fun other hm =>
        h.allocated other (hm.imp_left Finset.mem_of_mem_erase)
      exited := by
        intro hexit
        have hnil := (h.exited hexit).2.1
        rw [hcm] at hnil
        cases hnil }

/-- **The reducer has ended an operation that it has not launched.** -/
theorem Inv.drain (h : Inv { s with admitted := s.admitted.erase op })
    (hr : s.reduction = none) (hrun : ¬ s.Exited) (hover : s.Over op)
    (hl : op ∉ s.launched) (hall : op ∈ s.allocated)
    (hcl : s.clients op = none) (hqueue : op ∉ s.commands)
    (htask : ¬ s.HasTask op)
    (hcon : op ∈ s.controls ∧ op ∈ s.permits) :
    Inv { s with reduction := some (.drained op) } := by
  have hu : ∀ other, ¬ s.Reduced other := by
    rintro other ⟨_, hsome, -⟩
    cases hr.symm.trans hsome
  exact
    { h with
      placed := by
        obtain ⟨place, hplace⟩ := h.placed
        exact hplace.move .reducer rfl
          (fun _ hsome => .inr ⟨hsome, fun _ hid => hsome (hid ▸ hcl)⟩)
          (fun _ hm => .inr ⟨hm, fun _ hid => hqueue (hid ▸ hm)⟩)
          (fun d hm => .inr ⟨hm, fun _ hid => htask ⟨d, hm, hid⟩⟩)
          (by rintro _ ⟨⟩; exact .inl ⟨rfl, rfl⟩)
          fun _ hfresh => ⟨hfresh, fun hid => hfresh (hid ▸ hall)⟩
      covered := by
        intro other hm
        by_cases hid : other = op
        · exact .inl (hid ▸ hover)
        · rcases h.covered other (Finset.mem_erase.2 ⟨hid, hm⟩) with ho | ho | ho | ho
          · exact .inl ho
          · exact .inr (.inl ho)
          · exact .inr (.inr (.inl ho))
          · exact absurd ho (hu other)
      held := by
        rintro other (ho | ho | ⟨_, ⟨⟩, rfl⟩)
        · exact h.held other (.inl ho)
        · exact h.held other (.inr (.inl ho))
        · exact hcon
      reducing := by
        rintro _ ⟨⟩
        exact ⟨hl, hover⟩
      launched := fun other hm => (h.launched other hm).imp_right fun ho =>
        .inl (ho.resolve_right (hu other))
      reduced := by
        rintro _ ⟨⟩ hnot
        exact absurd rfl (hnot op)
      sent := by
        intro other hm
        by_cases hid : other = op
        · exact hid ▸ hcl
        · exact h.sent other (Finset.mem_erase.2 ⟨hid, hm⟩)
      allocated := by
        rintro other (hm | hm)
        · by_cases hid : other = op
          · exact hid ▸ hall
          · exact h.allocated other (.inl (Finset.mem_erase.2 ⟨hid, hm⟩))
        · exact h.allocated other (.inr hm)
      exited := fun hexit => absurd hexit hrun }

theorem inv_drainPendingAdmission (h : s.Inv) (hok : drainPendingAdmission readings s = .ok u s') :
    s'.Inv := by
  simp only [drainPendingAdmission, onRegistry, bind_ok_iff, get_eq_ok, enabled_eq_ok] at hok
  obtain ⟨_, _, ⟨rfl, rfl⟩, _, _, ⟨⟨_, -, hreducer⟩, rfl⟩, hok⟩ := hok
  rw [Option.isNone_iff_eq_none] at hreducer
  cases hcm : s.commands with rw [hcm] at hok
  | nil => cases hok
  | cons op commands =>
    simp only [bind_ok_iff, zoom_eq_ok, modify_eq_ok] at hok
    obtain ⟨_, _, ⟨registry, hc, rfl⟩, rfl⟩ := hok
    have hm : op ∈ s.commands := by simp [hcm]
    have hheld : s.Held op := .inl hm
    have hnot : op ∉ commands := by
      have hnodup := h.nodup
      rw [hcm, List.nodup_cons] at hnodup
      exact hnodup.1
    have hl := h.early op (.inl hm)
    have hn := h.client_none hheld
    have hs := (h.dequeue hcm).transitioned (.inr ⟨hl, .inr ⟨hnot, hn⟩⟩) hc
    exact Inv.drain (s := { s with registry, commands }) hs hreducer (h.not_exited hheld)
      (fun _ hr hid => transition_ends hc rfl hr hid) hl
      (h.allocated_of_held hheld) hn hnot (h.queued_only hm) (h.held op hheld)

/-! ### When the reducer has stopped -/

section Recovering

variable (h : s.Inv)

include h

/-- Nothing runs any more of any operation once the reducer has exited. -/
theorem Inv.retired (hexit : s.Exited) (op : Text) : s.Retired op := by
  by_cases hm : op ∈ s.launched
  · refine .inl ((h.launched op hm).resolve_right fun hheld => ?_)
    exact h.not_exited (.inr hheld) hexit
  · exact .inr ⟨hm, .inl hexit⟩

theorem Inv.setRecovery (hexit : s.Exited) (recovery : Recovery)
    (hphase : recovery ≠ .closing → s.phase ≠ .opened) : Inv { s with recovery } :=
  { h with
    recovering := fun _ => hexit
    recovered := fun _ => hphase }

theorem inv_watchSupervisor (hok : watchSupervisor s = .ok u s') : s'.Inv := by
  obtain ⟨-, hok⟩ := guarded_eq_ok.1 hok
  cases hr : s.reducer with rw [hr] at hok
  | exited ok =>
    rw [← set_eq_ok.1 hok, ← hr]
    split_ifs with hphase
    · exact h.setRecovery ⟨ok, hr⟩ _ fun _ => hphase.2
    · exact { h.setRecovery ⟨ok, hr⟩ .closing (by simp) with }
  | unstarted | running | shuttingDown | failed | failing => cases hok

/-- The live tasks and the controls are forgotten when nothing is held. -/
theorem Inv.forgetTasks (hexit : s.Exited) :
    Inv { s with liveTasks := Table.empty } := by
  have hno : ∀ d ∈ s.descriptors, False := fun d hm =>
    h.not_exited (.inr (.inl ⟨d, hm, rfl⟩)) hexit
  exact
    { h with
      linked :=
        { h.linked with
          live := fun d hm => (hno d hm).elim
          owned := fun _ hm => (Table.not_mem_empty hm).elim } }

theorem Inv.forgetControls (hexit : s.Exited) : Inv { s with controls := ∅ } :=
  { h with
    held := fun _ hheld => absurd hexit (h.not_exited hheld)
    client := fun other hst => ⟨(h.client other hst).1, .inr hexit⟩
    reason := fun other hr => h.reason other
      (hr.imp_right fun hc => absurd hc.2 (Finset.notMem_empty _))
    untouched := fun other hfresh => ⟨Finset.notMem_empty _, (h.untouched other hfresh).2⟩ }

/-- The supervisor is closed for good. -/
theorem Inv.close (hphase : s.phase ≠ .opened ∨ s.controls = ∅)
    (hover : s.Exited ∨ s.reducer = .unstarted) : Inv { s with phase := .closed } :=
  { h with
    reason := by
      rintro other (hc | ⟨-, hm⟩)
      · exact h.reason other (.inl hc)
      · refine h.reason other (.inr ⟨hphase.resolve_right fun hn => ?_, hm⟩)
        exact Finset.notMem_empty other (hn ▸ hm)
    rooted := fun _ => by simp
    recovered := fun _ _ => by simp
    closed := fun _ => hover }

theorem inv_recover {cleanupError : Option Text} {error : Text}
    (hok : recover readings op cleanupError error s = .ok u s') : s'.Inv := by
  simp only [recover, onRegistry, get_bind] at hok
  cases hrec : s.recovery with rw [hrec] at hok
  | waiting | finished => cases hok
  | closing =>
    rw [← set_eq_ok.1 hok]
    have hexit : s.Exited := h.recovering (by simp [hrec])
    refine h.failCloseSupervisor.setRecovery hexit _ fun _ => ?_
    simp only [Supervisor.failCloseSupervisor]
    split_ifs <;> simp
  | aborting =>
    have hexit : s.Exited := h.recovering (by simp [hrec])
    have hp := h.recovered (by simp [hrec]) (by simp [hrec])
    rw [← set_eq_ok.1 hok]
    have hs := h.updateControls .stopAccepting fun other hm =>
      { Tightened.refl _ _ _ with
        idle := fun _ => ⟨rfl, le_rfl⟩
        untouched := fun hfresh => absurd hm (h.untouched other hfresh).1 }
    exact (hs.forgetTasks hexit).setRecovery hexit _ fun _ => hp
  | awaitingIdle =>
    have hexit : s.Exited := h.recovering (by simp [hrec])
    have hp := h.recovered (by simp [hrec]) (by simp [hrec])
    obtain ⟨-, rfl⟩ := enabled_set_eq_ok.1 hok
    exact h.setRecovery hexit _ fun _ => hp
  | draining =>
    have hexit : s.Exited := h.recovering (by simp [hrec])
    have hp := h.recovered (by simp [hrec]) (by simp [hrec])
    rw [← set_eq_ok.1 hok]
    exact (h.forgetControls hexit).setRecovery hexit _ fun _ => hp
  | classifying _ operations =>
    have hexit : s.Exited := h.recovering (by simp [hrec])
    have hp := h.recovered (by simp [hrec]) (by simp [hrec])
    dsimp only at hok
    by_cases hempty : operations = ∅
    · rw [if_pos hempty] at hok
      rw [← set_eq_ok.1 hok]
      have hs := (h.close (.inl hp) (.inl hexit)).setRecovery hexit (.finished false)
        fun _ => by simp
      exact { hs with }
    · rw [if_neg hempty] at hok
      simp only [bind_ok_iff, enabled_eq_ok, zoom_eq_ok, modify_eq_ok] at hok
      obtain ⟨_, _, ⟨-, rfl⟩, _, _, ⟨_, hc, rfl⟩, rfl⟩ := hok
      have hs := (h.transitioned (h.retired hexit op) hc).clean op
      exact hs.setRecovery hexit _ fun _ => hp

theorem inv_drainController (hok : drainController s = .ok u s') : s'.Inv := by
  obtain ⟨-, hok⟩ := guarded_eq_ok.1 hok
  split_ifs at hok with hdone
  · rw [← set_eq_ok.1 hok]
    suffices hs : Inv { s with phase := .closed } from { hs with }
    rcases hdone with hu | hfin
    · -- Nothing was ever admitted.
      refine h.close (.inr ?_) (.inr hu)
      refine Finset.eq_empty_of_forall_notMem fun other => (h.untouched other ?_).1
      rw [h.unstarted hu]
      exact Finset.notMem_empty other
    · exact h.close (.inl (h.recovered (by simp [hfin]) (by simp [hfin])))
        (.inl (h.recovering (by simp [hfin])))
  · obtain ⟨hfin, rfl⟩ := enabled_set_eq_ok.1 hok
    exact h.setRecovery (h.recovering (by simp [hfin])) _
      fun _ => h.recovered (by simp [hfin]) (by simp [hfin])

end Recovering

/-! ### Every state of a supervisor -/

theorem inv_initial : (initial ext).Inv where
  placed := ⟨fun _ => .nowhere, by simp [initial], by simp [initial], by simp [initial],
    by simp [initial], by simp⟩
  nodup := List.nodup_nil
  linked := ⟨by simp [initial], by simp [initial], by simp [initial], by simp [initial],
    by simp [initial]⟩
  covered := by simp [initial]
  held := by rintro other (hm | ⟨_, hm, -⟩ | ⟨_, ⟨⟩, -⟩) <;> simp [initial] at hm
  client := by simp [initial]
  permitted := by simp [initial]
  exits := by simp [initial]
  external := by simp [initial]
  reducing := by simp [initial]
  settled := by simp [initial, OperationControl.new]
  stopped := by simp [initial, OperationControl.new]
  reason := by simp [initial, OperationControl.new]
  rooted := by simp [initial]
  launched := by simp [initial]
  tasked := by rintro other ⟨_, hm, -⟩; simp [initial] at hm
  reduced := by simp [initial]
  sent := by simp [initial]
  unlaunched := by simp [initial, OperationControl.new]
  early := by simp [initial]
  ended := by simp [initial, RegistryState.initial]
  recorded := by simp [initial, RegistryState.initial]
  unrecorded := by simp [initial, OperationControl.new]
  allocated := by simp [initial]
  untouched := by simp [initial]
  unstarted := by simp [initial]
  exited := by rintro ⟨ok, hok⟩; cases hok
  recovering := by simp [initial]
  recovered := by simp [initial]
  closed := by simp [initial]

/-- **Whatever anybody does keeps the invariant.** -/
theorem inv_perform (h : s.Inv) (action : Action ext) (hok : action.perform s = .ok u s') :
    s'.Inv := by
  cases action with
  | prepare => exact inv_prepare h hok
  | insertRecord => exact inv_insertRecord h hok
  | startRecord => exact inv_startRecord h hok
  | admitOperation => exact inv_admit h hok
  | synchronizeAdmittedControl => exact inv_synchronizeAdmittedControl h hok
  | send => exact inv_send h hok
  | failToSend => exact inv_failToSend h hok
  | removeControl => exact inv_removeControl h hok
  | removeRecord => exact inv_removeRecord h hok
  | requestCancel => exact inv_requestCancel h hok
  | cancel => exact inv_cancel h hok
  | reduceModuleEvent => exact inv_reduceModuleEvent h hok
  | settle => exact inv_settle h hok
  | inspectRegistry => exact inv_inspectRegistry h hok
  | reportProgress => exact inv_reportProgress h hok
  | beginWorker => exact inv_beginWorker h hok
  | endWorker => exact inv_endWorker h hok
  | createFile => exact inv_createFile h hok
  | passDeadline => exact inv_passDeadline h hok
  | exitTask => exact inv_exitTask h hok
  | launchCommand => exact inv_launchCommand h hok
  | startShutdown => exact inv_startShutdown h hok
  | closeCommands => exact inv_closeCommands h hok
  | closeAfterFailure => exact inv_closeAfterFailure h hok
  | drainPendingAdmission => exact inv_drainPendingAdmission h hok
  | joinTask => exact inv_joinTask h hok
  | reduce => exact inv_reduce h hok
  | exitReducer => exact inv_exitReducer h hok
  | watchSupervisor => exact inv_watchSupervisor h hok
  | recover => exact inv_recover h hok
  | beginClose => exact inv_beginClose h hok
  | cancelRoot => exact inv_cancelRoot h hok
  | takeController => exact inv_takeController h hok
  | drainController => exact inv_drainController h hok

theorem Reachable.inv (h : s.Reachable) : s.Inv := by
  induction h with
  | initial => exact inv_initial
  | step action _ hstep ih => exact inv_perform ih action hstep

/-- The operation has exactly one task, and that is live and has one descriptor. -/
structure HasOneTask (s : Supervisor ext) (operationId : Text) : Prop where
  task : ∃! task, task ∈ s.tasks ∧ task.operationId = operationId
  descriptor : ∃! descriptor, descriptor ∈ s.descriptors ∧ descriptor.operationId = operationId
  live : ∃ task ∈ s.tasks, ∃ descriptor ∈ s.descriptors, task.operationId = operationId ∧
    descriptor.operationId = operationId ∧ descriptor.taskId = task.taskId ∧
    s.liveTasks.find? operationId = some ⟨operationId, task.taskId⟩

/-- **An operation is supervised**: it waits in the queue, has a task, or is in the reducer's hands
between two tasks, and only one of these; and its control and its permit are there. -/
structure Supervised (s : Supervisor ext) (operationId : Text) : Prop where
  place : (s.commands.count operationId = 1 ∧ ¬ s.HasTask operationId ∧ ¬ s.Reduced operationId) ∨
    (s.HasOneTask operationId ∧ operationId ∉ s.commands ∧ ¬ s.Reduced operationId) ∨
    (s.Reduced operationId ∧ operationId ∉ s.commands ∧ ¬ s.HasTask operationId)
  control : operationId ∈ s.controls
  permit : operationId ∈ s.permits

/-- The operation was never launched, so it has neither workers nor a staging file. -/
def NeverRan (s : Supervisor ext) (operationId : Text) : Prop :=
  operationId ∉ s.launched ∧ (s.control operationId).activeWorkers = 0 ∧
    (s.control operationId).fileCreated = false

theorem Inv.hasOneTask (h : s.Inv) (htask : s.HasTask op) : s.HasOneTask op := by
  obtain ⟨d, hm, rfl⟩ := htask
  obtain ⟨task, htask, ht⟩ := h.linked.task d hm
  obtain ⟨own, hown, hownId, howner, -⟩ := h.linked.descriptor task htask
  obtain rfl := Table.eq_of_key_eq hown hm (hownId.trans ht)
  have hu : ∀ other ∈ s.descriptors, other.operationId = own.operationId → other = own :=
    fun other ho hid =>
      Table.eq_of_key_eq ho hm (h.linked.taskId_of_operationId ho hm hid)
  refine ⟨⟨task, ⟨htask, howner.symm⟩, fun other ⟨ho, hid⟩ => ?_⟩, ⟨own, ⟨hm, rfl⟩,
    fun other ⟨ho, hid⟩ => hu other ho hid⟩, task, htask, own, hm, howner.symm, rfl,
    hownId, ht ▸ h.linked.live own hm⟩
  obtain ⟨theirs, htheirs, htheirsId, htheirsOwner, -⟩ := h.linked.descriptor other ho
  obtain rfl := hu theirs htheirs (htheirsOwner.trans hid)
  exact Table.eq_of_key_eq ho htask (htheirsId.symm.trans hownId)

theorem Inv.supervised (h : s.Inv) (hheld : s.Held op) : s.Supervised op := by
  refine ⟨?_, (h.held op hheld).1, (h.held op hheld).2⟩
  rcases hheld with hq | htask | hr
  · refine .inl ⟨List.count_eq_one_of_mem h.nodup hq, h.queued_only hq, fun hr => ?_⟩
    exact (h.reduced_only hr).1 hq
  · refine .inr (.inl ⟨h.hasOneTask htask, fun hq => h.queued_only hq htask, fun hr => ?_⟩)
    exact (h.reduced_only hr).2 htask
  · exact .inr (.inr ⟨hr, h.reduced_only hr⟩)

/-- **Supervision covers every operation.** In every state that a supervisor can be in:

* an operation that is admitted, and whose record is there and not terminal, is supervised;
* an operation that is over, and not by a module event, has idle workers for good and has been
  cleaned up, or was never launched;
* once the supervisor is closed, which it is when a shutdown returns, every operation that was
  admitted is over. -/
theorem supervision_covers (h : s.Reachable) :
    (∀ operationId ∈ s.admitted, ¬ s.Over operationId → s.Supervised operationId) ∧
      (∀ record ∈ s.registry.records, record.operation.status.isTerminal = true →
        record.operation.endedByEvent = false →
          s.Quiet record.operation.operationId ∨ s.NeverRan record.operation.operationId) ∧
      (s.phase = .closed → ∀ operationId ∈ s.admitted, s.Over operationId) := by
  have hinv := h.inv
  refine ⟨fun operationId hmem hlive => ?_, fun record hmem hterminal hevent => ?_,
    fun hclosed operationId hmem => ?_⟩
  · exact hinv.supervised ((hinv.covered operationId hmem).resolve_left hlive)
  · have hretired := (hinv.ended record hmem hterminal).resolve_left (by simp [hevent])
    exact hretired.imp_right fun hno => ⟨hno.1, hinv.unlaunched _ hno.1⟩
  · exact (hinv.covered operationId hmem).resolve_right fun hheld => hinv.not_closed hheld hclosed

/-- Do one thing after another. -/
def performs (actions : List (Action ext)) : Mutation (Supervisor ext) Unit :=
  actions.forM Action.perform

theorem Reachable.performs {actions : List (Action ext)} (h : s.Reachable)
    (hok : Supervisor.performs actions s = .ok u s') : s'.Reachable := by
  induction actions generalizing s with
  | nil =>
    obtain ⟨-, rfl⟩ := pure_ok_iff.1 hok
    exact h
  | cons action _ ih =>
    obtain ⟨_, _, hact, hrest⟩ := bind_ok_iff.1 hok
    exact ih (h.step action hact) hrest

/-- An upload that is admitted, … -/
def admitUpload : List (Action sampleExternals) :=
  [.prepare "upload".toList true, .insertRecord sampleReadings "upload".toList sampleRequest 1000,
    .startRecord sampleReadings "upload".toList, .admitOperation "upload".toList,
    .synchronizeAdmittedControl sampleReadings "upload".toList, .send "upload".toList]

/-- … executed, and handed over to a task that waits for the storage module, … -/
def executeUpload : List (Action sampleExternals) :=
  [.launchCommand, .createFile "upload".toList, .beginWorker "upload".toList,
    .exitTask 0 (.ok (.execution "upload".toList (.resolved (.accepted sampleAcceptance)))),
    .joinTask 0, .endWorker "upload".toList] ++ List.replicate 5 (.reduce sampleReadings none)

/-- … and stopped by a shutdown. -/
def stopUpload : List (Action sampleExternals) :=
  [.beginClose, .takeController, .cancelRoot, .startShutdown, .closeCommands,
    .exitTask 1 (.ok (.external "upload".toList .shutdown)), .joinTask 1] ++
    List.replicate 5 (.reduce sampleReadings none) ++
    [.exitReducer, .watchSupervisor, .drainController]

/-- Whether the record of the upload is there and not terminal. -/
def uploadRuns (s : Supervisor sampleExternals) : Bool :=
  (s.registry.records.find? "upload".toList).any fun record => !record.operation.status.isTerminal

theorem not_over_of_uploadRuns {s : Supervisor sampleExternals} (h : s.uploadRuns = true) :
    ¬ s.Over "upload".toList := by
  obtain ⟨r, hr, hrun⟩ := (Option.any_eq_true _ _).1 h
  obtain ⟨hm, hid⟩ := Table.find?_eq_some.1 hr
  intro hover
  simp [hover r hm hid] at hrun

/-- The upload is supervised while it waits for its module, and over when the shutdown returns. -/
theorem supervision_covers_upload :
    ∃ waiting stopped : Supervisor sampleExternals, waiting.Reachable ∧ stopped.Reachable ∧
      waiting.uploadRuns = true ∧ waiting.Supervised "upload".toList ∧
      stopped.phase = .closed ∧ stopped.Over "upload".toList := by
  obtain ⟨waiting, hwaiting, hruns⟩ := Mutation.exists_of_succeedsWith
    (m := performs (admitUpload ++ executeUpload)) (s := initial sampleExternals)
    (p := fun s => s.uploadRuns && decide ("upload".toList ∈ s.admitted)) (by decide +kernel)
  obtain ⟨stopped, hstopped, hclosed⟩ := Mutation.exists_of_succeedsWith
    (m := performs (admitUpload ++ executeUpload ++ stopUpload)) (s := initial sampleExternals)
    (p := fun s => decide (s.phase = .closed ∧ "upload".toList ∈ s.admitted)) (by decide +kernel)
  simp only [Bool.and_eq_true, decide_eq_true_eq] at hruns hclosed
  have hwaiting' := Reachable.initial.performs hwaiting
  have hstopped' := Reachable.initial.performs hstopped
  exact ⟨waiting, stopped, hwaiting', hstopped', hruns.1,
    (supervision_covers hwaiting').1 _ hruns.2 (not_over_of_uploadRuns hruns.1), hclosed.1,
    (supervision_covers hstopped').2.2 hclosed.1 _ hclosed.2⟩

/-- **An operation in the queue has no task.** The upload is admitted and not over, and the reducer
has not received it yet. -/
theorem admitted_without_task :
    ∃ s : Supervisor sampleExternals, s.Reachable ∧ "upload".toList ∈ s.admitted ∧
      ¬ s.Over "upload".toList ∧ s.tasks.records = [] ∧ s.descriptors.records = [] ∧
      s.liveTasks.records = [] := by
  obtain ⟨s, hs, hruns⟩ := Mutation.exists_of_succeedsWith
    (m := performs admitUpload) (s := initial sampleExternals)
    (p := fun s => s.uploadRuns && decide ("upload".toList ∈ s.admitted) &&
      s.tasks.records.isEmpty && s.descriptors.records.isEmpty && s.liveTasks.records.isEmpty)
    (by decide +kernel)
  simp only [Bool.and_eq_true, decide_eq_true_eq, List.isEmpty_iff] at hruns
  obtain ⟨⟨⟨⟨hruns, hadmitted⟩, htasks⟩, hdescriptors⟩, hlive⟩ := hruns
  exact ⟨s, Reachable.initial.performs hs, hadmitted, not_over_of_uploadRuns hruns, htasks,
    hdescriptors, hlive⟩

end Supervisor

end LogosInspector.Operations
