import LogosInspector.Operations.Supervision

/-!
# Every hand-over keeps the operation

The actions of the tasks, of the reducer, of its watcher and of a shutdown keep the invariant of the
supervisor. With those of the clients this is a step of any party, and so `Inv` holds in every state
that a supervisor can be in.

An admission moves from the queue to a task, from the task to the reducer and from there to another
task or out of the supervisor. Each of these moves is one lemma about the state (`Inv.spawn`,
`Inv.join`, `Inv.drain`, `Inv.letGo`), and the actions of the reducer are made of them. That a
move never ends in the failures that the code provides for, two tasks of one operation or a task
without its descriptor, is part of what they say.
-/

namespace LogosInspector.Operations

open Mutation Table

namespace Supervisor

variable {ext : OperationExternals} {s s' : Supervisor ext} {op : Text}
  {readings : Readings ext} {u : Unit}

/-! ### Cancellations and module events -/

section Events

variable (h : s.Inv)

include h

theorem Inv.mayHaveRecord (hknown : op ∈ s.canceling ∨ op ∈ s.settling) : s.MayHaveRecord op := by
  have hno : ¬ (op ∉ s.allocated ∨ s.clients op = some .prepared) := fun hn =>
    hknown.elim (h.unrecorded op hn).1 (h.unrecorded op hn).2.1
  rw [not_or, not_not] at hno
  exact hno

/-- Someone has canceled an operation in the registry. -/
theorem Inv.markCanceling (hstops : s.Stops op) (hmay : s.MayHaveRecord op) :
    Inv { s with canceling := Insert.insert op s.canceling } :=
  { h with
    stopped := by
      rintro other (hm | hstop)
      · rcases Finset.mem_insert.1 hm with rfl | hm
        · exact hstops
        · exact h.stopped other (.inl hm)
      · exact h.stopped other (.inr hstop)
    unrecorded := by
      intro other hn
      refine ⟨fun hm => ?_, (h.unrecorded other hn).2⟩
      rcases Finset.mem_insert.1 hm with rfl | hm
      · exact hn.elim (fun hfresh => hfresh hmay.1) hmay.2
      · exact (h.unrecorded other hn).1 hm }

/-- A module event has ended an operation. -/
theorem Inv.markSettling (hover : s.Over op) (hmay : s.MayHaveRecord op) :
    Inv { s with settling := Insert.insert op s.settling } :=
  { h with
    settled := by
      rintro other (hm | hset)
      · rcases Finset.mem_insert.1 hm with rfl | hm
        · exact hover
        · exact h.settled other (.inl hm)
      · exact h.settled other (.inr hset)
    unrecorded := by
      intro other hn
      obtain ⟨hc, hsettling, hcon⟩ := h.unrecorded other hn
      refine ⟨hc, fun hm => ?_, hcon⟩
      rcases Finset.mem_insert.1 hm with rfl | hm
      · exact hn.elim (fun hfresh => hfresh hmay.1) hmay.2
      · exact hsettling hm }

theorem Inv.unmarkCanceling (op : Text) :
    Inv { s with canceling := s.canceling.erase op } :=
  { h with
    stopped := fun other hstop => h.stopped other (hstop.imp_left Finset.mem_of_mem_erase)
    unrecorded := fun other hn =>
      ⟨fun hm => (h.unrecorded other hn).1 (Finset.mem_of_mem_erase hm),
        (h.unrecorded other hn).2⟩ }

theorem Inv.unmarkSettling (op : Text) :
    Inv { s with settling := s.settling.erase op } :=
  { h with
    settled := fun other hset => h.settled other (hset.imp_left Finset.mem_of_mem_erase)
    unrecorded := by
      intro other hn
      obtain ⟨hc, hsettling, hcon⟩ := h.unrecorded other hn
      exact ⟨hc, fun hm => hsettling (Finset.mem_of_mem_erase hm), hcon⟩ }

theorem inv_requestCancel (hok : requestCancel readings op s = .ok u s') : s'.Inv := by
  simp only [requestCancel, onRegistry, bind_ok_iff, zoom_eq_ok, modify_eq_ok] at hok
  obtain ⟨_, _, ⟨registry, hc, rfl⟩, rfl⟩ := hok
  have hs := h.gentle (transition_changed hc (.inl rfl))
  split_ifs with ha
  · subst ha
    obtain ⟨r, hm, rfl⟩ := transition_recorded hc
    exact hs.markCanceling (fun _ hmem' hid => transition_cancelable hc hmem' hid) (h.recorded r hm)
  · exact hs

theorem inv_cancel (hok : cancel op s = .ok u s') : s'.Inv := by
  obtain ⟨hm, rfl⟩ := guarded_set_eq_ok.1 hok
  have hs := h.unmarkCanceling op
  split_ifs with hcon
  · exact hs.updateControl .requestCancel (tightened_requestCancel _
      (h.stopped op (.inl hm)) (h.mayHaveRecord (.inl hm)))
  · exact hs

theorem inv_reduceModuleEvent {event : ModuleEventEnvelope}
    (hok : reduceModuleEvent readings event s = .ok u s') : s'.Inv := by
  simp only [reduceModuleEvent, onRegistry, bind_ok_iff, zoom_eq_ok, modify_eq_ok] at hok
  obtain ⟨⟨_, settled⟩, _, ⟨registry, hc, rfl⟩, rfl⟩ := hok
  have hs := h.gentle (ingest_changed hc)
  cases settled with
  | none => exact hs
  | some _ =>
    obtain ⟨r, hm, rfl⟩ := ingest_recorded hc
    exact hs.markSettling (fun _ hmem' hid => ingest_settled hc hmem' hid) (h.recorded r hm)

theorem inv_settle (hok : settle op s = .ok u s') : s'.Inv := by
  obtain ⟨hm, rfl⟩ := guarded_set_eq_ok.1 hok
  have hs := h.unmarkSettling op
  have hmay := h.mayHaveRecord (.inr hm)
  split_ifs with hcon
  · refine hs.updateControl .settle { Tightened.refl _ _ _ with
      settled := fun _ => .inr ⟨h.settled op (.inl hm), hmay⟩
      untouched := fun hfresh => absurd hmay.1 hfresh }
  · exact hs

theorem inv_inspectRegistry (hok : inspectRegistry readings s = .ok u s') : s'.Inv := by
  simp only [inspectRegistry, onRegistry, bind_ok_iff, zoom_eq_ok, pure_ok_iff] at hok
  obtain ⟨_, _, ⟨registry, hi, rfl⟩, -, rfl⟩ := hok
  exact h.gentle (inspect_changed hi)

end Events

/-! ### Tasks -/

section Tasks

variable {task : OperationTask} {joined : Except JoinError OperationTaskExit}

variable (h : s.Inv)

include h

/-- The operation of a task is launched. -/
theorem Inv.task_hasTask (hm : task ∈ s.tasks) : s.HasTask task.operationId := by
  obtain ⟨d, hd, -, hid, -⟩ := h.linked.descriptor task hm
  exact ⟨d, hd, hid⟩

theorem Inv.executes_launched (he : s.executes op = true) : op ∈ s.launched := by
  simp only [executes, List.any_eq_true, Bool.and_eq_true, decide_eq_true_eq] at he
  obtain ⟨_, hm, ⟨rfl, -⟩, -⟩ := he
  exact h.tasked _ (h.task_hasTask hm)

theorem inv_reportProgress {bytesWritten : ℕ} {contentLength : Option ℕ}
    (hok : reportProgress readings op bytesWritten contentLength s = .ok u s') :
    s'.Inv := by
  simp only [reportProgress, onRegistry, bind_ok_iff, get_eq_ok,
    enabled_eq_ok, zoom_eq_ok, pure_ok_iff] at hok
  obtain ⟨_, _, ⟨rfl, rfl⟩, _, _, ⟨-, rfl⟩, _, _, ⟨registry, hc, rfl⟩, -, rfl⟩ := hok
  exact h.gentle (transition_changed hc (.inl rfl))

theorem inv_beginWorker (hok : beginWorker op s = .ok u s') : s'.Inv := by
  obtain ⟨⟨hl, hacc⟩, rfl⟩ := guarded_set_eq_ok.1 hok
  exact h.updateControl _ { Tightened.refl _ _ _ with
    idle := fun hc => by simp [hc] at hacc
    unlaunched := fun hno => absurd hl hno
    untouched := fun hfresh => absurd (h.allocated _ (.inr hl)) hfresh }

theorem inv_endWorker (hok : endWorker op s = .ok u s') : s'.Inv := by
  obtain ⟨hac, rfl⟩ := guarded_set_eq_ok.1 hok
  exact h.updateControl _ { Tightened.refl _ _ _ with
    idle := fun hc => ⟨hc, Nat.sub_le ..⟩
    unlaunched := fun _ => ⟨Nat.sub_le .., id⟩
    untouched := fun hfresh => by
      rw [(h.untouched op hfresh).2] at hac
      exact absurd hac (lt_irrefl 0) }

theorem inv_createFile (hok : createFile op s = .ok u s') : s'.Inv := by
  obtain ⟨he, rfl⟩ := guarded_set_eq_ok.1 hok
  have hl := h.executes_launched he
  exact h.updateControl _ { Tightened.refl _ _ _ with
    unlaunched := fun hno => absurd hl hno
    untouched := fun hfresh => absurd (h.allocated _ (.inr hl)) hfresh }

theorem inv_passDeadline (hok : passDeadline op s = .ok u s') : s'.Inv := by
  obtain ⟨hl, rfl⟩ := guarded_set_eq_ok.1 hok
  exact h.updateControl (.requestStop .deadlineExceeded)
    (tightened_requestStop _ (by simp) (h.allocated _ (.inr hl)))

/-- An execution that says it was canceled can be. -/
theorem Inv.stops_of_mayReport (hcon : op ∈ s.controls) {msg : Text}
    {evidence : TerminationEvidence}
    (hreport : s.MayReport op (.interrupted ⟨.cancelRequested, evidence, msg⟩)) :
    s.Stops op := by
  obtain ⟨hc, hr⟩ := hreport.resolve_left (by simp)
  -- A canceled control has a reason, and so the default is not taken.
  have hsome : (s.control op).stopReason ≠ none := by
    rcases hc with hc | hroot
    · exact h.reason op (.inl hc)
    · exact h.reason op (.inr ⟨h.rooted (.inl hroot), hcon⟩)
  obtain ⟨_, hr'⟩ := Option.ne_none_iff_exists'.1 hsome
  rw [hr', Option.getD_some] at hr
  exact h.stopped op (.inr (hr'.trans (congrArg some hr.symm)))

/-- **A task exits.** -/
theorem Inv.exit (hm : task ∈ s.tasks)
    (hknown : ∀ exit, joined = .ok exit → s.ExitKnown task.operationId task.kind exit) :
    Inv { s with tasks := s.tasks.insert { task with joined := some joined } } :=
  { h with
    linked :=
      { h.linked with
        descriptor := by
          intro task' hmem'
          rcases mem_insert.1 hmem' with rfl | ⟨hmem', -⟩
          · exact h.linked.descriptor task hm
          · exact h.linked.descriptor task' hmem'
        task := by
          intro d hd
          obtain ⟨task', hmem', hid⟩ := h.linked.task d hd
          by_cases heq : task'.taskId = task.taskId
          · exact ⟨_, mem_insert_self _ _, heq.symm.trans hid⟩
          · exact ⟨task', mem_insert.2 (.inr ⟨hmem', heq⟩), hid⟩ }
    exits := by
      intro task' hmem' exit hexit
      rcases mem_insert.1 hmem' with rfl | ⟨hmem', -⟩
      · exact hknown exit (Option.some.inj hexit)
      · exact h.exits task' hmem' exit hexit
    exited := by
      intro he
      have hnil := (h.exited he).2.2.1
      rw [← mem_records, hnil] at hm
      cases hm }

theorem inv_exitTask {taskId : ℕ} (hok : exitTask taskId joined s = .ok u s') : s'.Inv := by
  simp only [exitTask, bind_ok_iff, get_eq_ok, ofExcept_eq_ok, required_eq_ok, enabled_eq_ok] at hok
  obtain ⟨_, _, ⟨rfl, rfl⟩, _, _, ⟨hf, rfl⟩, _, _, ⟨-, rfl⟩, hok⟩ := hok
  obtain ⟨hm, rfl⟩ := find?_eq_some.1 hf
  have hcon := (h.held _ (.inr (.inl (h.task_hasTask hm)))).1
  cases joined with
  | error _ =>
    rw [← set_eq_ok.1 hok]
    exact h.exit hm fun exit hexit => by cases hexit
  | ok exit =>
    cases exit with
    | execution =>
      obtain ⟨⟨hk, rfl, hr⟩, rfl⟩ := enabled_set_eq_ok.1 hok
      refine h.exit hm fun exit hexit => ?_
      obtain rfl := Except.ok.inj hexit
      refine ⟨rfl, hk, fun _ hres => ?_⟩
      subst hres
      exact h.stops_of_mayReport hcon hr
    | external =>
      obtain ⟨⟨hk, rfl, hwake⟩, rfl⟩ := enabled_set_eq_ok.1 hok
      refine h.exit hm fun _ hexit => ?_
      obtain rfl := Except.ok.inj hexit
      refine ⟨rfl, hk, fun hres => ?_⟩
      subst hres
      exact h.settled _ (.inr hwake)

end Tasks

section Moves

section

variable (h : s.Inv)

include h

/-- Once the reducer has exited, nothing is held. -/
theorem Inv.not_exited (hheld : s.Held op) : ¬ s.Exited := by
  intro hexit
  obtain ⟨-, hcm, htasks, hr⟩ := h.exited hexit
  rcases hheld with hm | ⟨d, hm, -⟩ | ⟨_, hreduction', -⟩
  · simp [hcm] at hm
  · obtain ⟨_, htask, -⟩ := h.linked.task d hm
    rw [← mem_records, htasks] at htask
    cases htask
  · cases hr.symm.trans hreduction'

theorem Inv.not_unstarted (hheld : s.Held op) : s.reducer ≠ .unstarted := by
  intro hu
  have hm := h.allocated_of_held hheld
  rw [h.unstarted hu] at hm
  cases hm

/-- While something is held, the supervisor is not closed. -/
theorem Inv.not_closed (hheld : s.Held op) : s.phase ≠ .closed :=
  fun hc => (h.closed hc).elim (h.not_exited hheld) (h.not_unstarted hheld)

theorem Inv.client_none (hheld : s.Held op) : s.clients op = none := by
  by_contra hcl
  exact h.not_held hcl hheld

/-- What the reducer has in its hands is neither in the queue nor has it a task. -/
theorem Inv.reduced_only (hreduced : s.Reduced op) :
    op ∉ s.commands ∧ ¬ s.HasTask op := by
  obtain ⟨_, hplace⟩ := h.placed
  obtain ⟨reduction, hr, rfl⟩ := hreduced
  have hp := hplace.reducer reduction hr
  refine ⟨fun hm => ?_, fun ⟨d, hm, hid⟩ => ?_⟩
  · cases hp.symm.trans (hplace.queue _ hm)
  · cases hp.symm.trans (hid ▸ hplace.task d hm)

theorem Inv.queued_only (hq : op ∈ s.commands) : ¬ s.HasTask op := by
  obtain ⟨_, hplace⟩ := h.placed
  rintro ⟨d, hm, rfl⟩
  cases (hplace.queue _ hq).symm.trans (hplace.task d hm)

theorem Inv.not_live (htask : ¬ s.HasTask op) : s.liveTasks.contains op = false := by
  rw [← Bool.not_eq_true, contains_iff]
  rintro ⟨live, hm, rfl⟩
  obtain ⟨d, hd, -, hid⟩ := h.linked.owned live hm
  exact htask ⟨d, hd, hid⟩

end

variable {d : TaskDescriptor} {reduction : Reduction}

/-- One operation has one task. -/
theorem Linked.taskId_of_operationId (h : Linked s.tasks s.descriptors s.liveTasks s.nextTaskId)
    {descriptor' : TaskDescriptor} (hm : d ∈ s.descriptors)
    (hmem' : descriptor' ∈ s.descriptors) (hid : d.operationId = descriptor'.operationId) :
    d.taskId = descriptor'.taskId := by
  have hlive := h.live d hm
  rw [hid, h.live descriptor' hmem'] at hlive
  exact (congrArg LiveOperationTask.taskId (Option.some.inj hlive)).symm

/-- Spawning a task adds one to each of the three tables. -/
theorem Linked.spawn (h : Linked s.tasks s.descriptors s.liveTasks s.nextTaskId)
    (htask : ¬ s.HasTask d.operationId) :
    Linked (s.tasks.insert ⟨s.nextTaskId, d.operationId, d.kind, d.externalWaitPolicy, none⟩)
      (s.descriptors.insert { d with taskId := s.nextTaskId })
      (s.liveTasks.insert ⟨d.operationId, s.nextTaskId⟩) (s.nextTaskId + 1) where
  descriptor := by
    intro task hm
    rcases mem_insert.1 hm with rfl | ⟨hm, -⟩
    · exact ⟨_, mem_insert_self _ _, rfl, rfl, rfl⟩
    · obtain ⟨other, ho, ht, hrest⟩ := h.descriptor task hm
      exact ⟨other, mem_insert.2 (.inr ⟨ho, (h.fresh other ho).ne⟩), ht, hrest⟩
  task := by
    intro other hm
    rcases mem_insert.1 hm with rfl | ⟨hm, -⟩
    · exact ⟨_, mem_insert_self _ _, rfl⟩
    · obtain ⟨task, htask', ht⟩ := h.task other hm
      have hne : task.taskId ≠ s.nextTaskId := ht ▸ (h.fresh other hm).ne
      exact ⟨task, mem_insert.2 (.inr ⟨htask', hne⟩), ht⟩
  live := by
    intro other hm
    rcases mem_insert.1 hm with rfl | ⟨hm, -⟩
    · exact (find?_insert ..).trans (if_pos rfl)
    · refine (find?_insert ..).trans ((if_neg fun hid => ?_).trans (h.live other hm))
      exact htask ⟨other, hm, hid⟩
  owned := by
    intro live hm
    rcases mem_insert.1 hm with rfl | ⟨hm, -⟩
    · exact ⟨_, mem_insert_self _ _, rfl, rfl⟩
    · obtain ⟨other, ho, hrest⟩ := h.owned live hm
      exact ⟨other, mem_insert.2 (.inr ⟨ho, (h.fresh other ho).ne⟩), hrest⟩
  fresh := by
    intro other hm
    rcases mem_insert.1 hm with rfl | ⟨hm, -⟩
    · exact Nat.lt_succ_self _
    · exact (h.fresh other hm).trans (Nat.lt_succ_self _)

variable (h : s.Inv)

include h

/-- **A task is spawned** for an operation that comes out of the queue or out of the reducer's
hands. -/
theorem Inv.spawn {commands : List Text} (hfrom : d.operationId ∈ s.commands ∨
      (s.Reduced d.operationId ∧ d.operationId ∈ s.launched))
    (hcm : ∀ other, other ∈ commands ↔ other ∈ s.commands ∧ other ≠ d.operationId)
    (hnodup : commands.Nodup)
    (hr : ∀ reduction, s.reduction = some reduction → reduction.operationId = d.operationId)
    (hext : d.kind = .external → s.Quiet d.operationId) :
    Inv { s with
      commands
      launched := Insert.insert d.operationId s.launched
      tasks := s.tasks.insert ⟨s.nextTaskId, d.operationId, d.kind, d.externalWaitPolicy, none⟩
      liveTasks := s.liveTasks.insert ⟨d.operationId, s.nextTaskId⟩
      descriptors := s.descriptors.insert { d with taskId := s.nextTaskId }
      nextTaskId := s.nextTaskId + 1
      reduction := none } := by
  obtain ⟨place, hplace⟩ := h.placed
  have hheld : s.Held d.operationId := hfrom.imp_right fun hreduced => .inr hreduced.1
  have hn := h.client_none hheld
  have htask : ¬ s.HasTask d.operationId := hfrom.elim h.queued_only
    fun hreduced => (h.reduced_only hreduced.1).2
  have ho : ∀ other ∈ s.descriptors, other.operationId ≠ d.operationId :=
    fun other hm hid => htask ⟨other, hm, hid⟩
  have hkept : ∀ other ∈ s.descriptors,
      other ∈ s.descriptors.insert { d with taskId := s.nextTaskId } := fun other hm =>
    mem_insert.2 (.inr ⟨hm, (h.linked.fresh other hm).ne⟩)
  have hs : { d with taskId := s.nextTaskId } ∈
      s.descriptors.insert { d with taskId := s.nextTaskId } := mem_insert_self _ _
  exact
    { h with
      placed := hplace.move .task rfl
        (fun _ hcl => .inr ⟨hcl, fun _ hid => hcl (hid ▸ hn)⟩)
        (fun other hm => .inr (((hcm other).1 hm).imp_right fun hne _ => hne))
        (fun other hm => (mem_insert.1 hm).imp (by rintro rfl; exact ⟨rfl, rfl⟩)
          fun hm => ⟨hm.1, fun _ => ho other hm.1⟩)
        (fun _ hn => by cases hn)
        fun _ hfresh => ⟨hfresh, by rintro rfl; exact hfresh (h.allocated_of_held hheld)⟩
      nodup := hnodup
      linked := Linked.spawn h.linked htask
      covered := by
        intro other hm
        by_cases hid : other = d.operationId
        · exact .inr (.inr (.inl ⟨_, hs, hid.symm⟩))
        · refine (h.covered other hm).imp_right ?_
          rintro (hq | ⟨task, htask', rfl⟩ | ⟨reduction, hreduction', rfl⟩)
          · exact .inl ((hcm other).2 ⟨hq, hid⟩)
          · exact .inr (.inl ⟨task, hkept task htask', rfl⟩)
          · exact absurd (hr reduction hreduction') hid
      held := by
        rintro other (hq | ⟨task, htask', rfl⟩ | ⟨reduction, hn, -⟩)
        · exact h.held other (.inl ((hcm other).1 hq).1)
        · rcases mem_insert.1 htask' with rfl | ⟨htask', -⟩
          · exact h.held _ hheld
          · exact h.held _ (.inr (.inl ⟨task, htask', rfl⟩))
        · cases hn
      exits := by
        intro task hm exit hexit
        rcases mem_insert.1 hm with rfl | ⟨hm, -⟩
        · cases hexit
        · exact h.exits task hm exit hexit
      external := by
        intro other hm hk
        rcases mem_insert.1 hm with rfl | ⟨hm, -⟩
        · exact hext hk
        · exact h.external other hm hk
      reducing := fun reduction hn => by cases hn
      launched := by
        intro other hm
        by_cases hid : other = d.operationId
        · exact .inr (.inl ⟨_, hs, hid.symm⟩)
        · refine (h.launched other (Finset.mem_of_mem_insert_of_ne hm hid)).imp_right ?_
          rintro (⟨task, htask', rfl⟩ | ⟨reduction, hreduction', rfl⟩)
          · exact .inl ⟨task, hkept task htask', rfl⟩
          · exact absurd (hr reduction hreduction') hid
      tasked := by
        rintro other ⟨task, htask', rfl⟩
        rcases mem_insert.1 htask' with rfl | ⟨htask', -⟩
        · exact Finset.mem_insert_self _ _
        · exact Finset.mem_insert_of_mem (h.tasked _ ⟨task, htask', rfl⟩)
      reduced := fun _ hn => by cases hn
      unlaunched := fun other hno =>
        h.unlaunched other fun hm => hno (Finset.mem_insert_of_mem hm)
      early := by
        intro other hearly hm
        rcases Finset.mem_insert.1 hm with rfl | hm
        · exact hearly.elim (fun hq => ((hcm _).1 hq).2 rfl) (· hn)
        · exact h.early other (hearly.imp_left fun hq => ((hcm other).1 hq).1) hm
      ended := by
        intro r hm ht
        refine (h.ended r hm ht).imp_right (Or.imp_right fun hret => ?_)
        obtain ⟨hq, hcl⟩ := hret.2.resolve_left (h.not_exited hheld)
        have hne : r.operation.operationId ≠ d.operationId := fun hid =>
          hfrom.elim (fun hm => hq (hid ▸ hm)) fun hm => hret.1 (hid ▸ hm.2)
        refine ⟨fun hl => hret.1 (Finset.mem_of_mem_insert_of_ne hl hne), .inr
          ⟨fun hm => hq ((hcm _).1 hm).1, hcl⟩⟩
      allocated := by
        rintro other (hm | hm)
        · exact h.allocated other (.inl hm)
        · rcases Finset.mem_insert.1 hm with rfl | hm
          · exact h.allocated_of_held hheld
          · exact h.allocated other (.inr hm)
      exited := fun he => absurd he (h.not_exited hheld) }

omit h in
/-- An operation that is not supervised yet gets a task, and nothing fails. -/
theorem spawnOperationTask_eq (hlive : s.liveTasks.contains d.operationId = false) :
    s.spawnOperationTask d =
      { s with
        tasks := s.tasks.insert ⟨s.nextTaskId, d.operationId, d.kind, d.externalWaitPolicy, none⟩
        liveTasks := s.liveTasks.insert ⟨d.operationId, s.nextTaskId⟩
        descriptors := s.descriptors.insert { d with taskId := s.nextTaskId }
        nextTaskId := s.nextTaskId + 1
        reduction := none } := by
  unfold spawnOperationTask
  rw [hlive, if_neg (by simp)]

theorem inv_launchCommand (hok : launchCommand s = .ok u s') : s'.Inv := by
  obtain ⟨⟨-, hr⟩, hok⟩ := guarded_eq_ok.1 hok
  rw [Option.isNone_iff_eq_none] at hr
  cases hcm : s.commands with rw [hcm] at hok
  | nil => cases hok
  | cons op commands =>
    have hm : op ∈ s.commands := by simp [hcm]
    obtain ⟨hnot, hnodup⟩ := List.nodup_cons.1 (hcm ▸ h.nodup)
    have hlive := h.not_live (h.queued_only hm)
    have hrest : ∀ other, other ∈ commands ↔ other ∈ s.commands ∧ other ≠ op := by
      intro _
      rw [hcm, List.mem_cons]
      refine ⟨fun ho => ⟨.inr ho, fun hid => hnot (hid ▸ ho)⟩, fun ho => ?_⟩
      exact ho.1.resolve_left ho.2
    rw [← set_eq_ok.1 hok]
    rw [spawnOperationTask_eq (by exact hlive)]
    exact h.spawn (.inl hm) hrest hnodup (by simp [hr]) (by simp)

omit h in
/-- Taking a task up removes one from each of the three tables. -/
theorem Linked.join (h : Linked s.tasks s.descriptors s.liveTasks s.nextTaskId)
    (hm : d ∈ s.descriptors) :
    Linked (s.tasks.erase d.taskId) (s.descriptors.erase d.taskId)
      (s.liveTasks.erase d.operationId) s.nextTaskId where
  descriptor := by
    intro task htask
    obtain ⟨htask, hne⟩ := mem_erase.1 htask
    obtain ⟨other, ho, ht, hrest⟩ := h.descriptor task htask
    exact ⟨other, mem_erase.2 ⟨ho, fun hid => hne (ht.symm.trans hid)⟩, ht, hrest⟩
  task := by
    intro other ho
    obtain ⟨ho, hne⟩ := mem_erase.1 ho
    obtain ⟨task, htask, ht⟩ := h.task other ho
    exact ⟨task, mem_erase.2 ⟨htask, fun hid => hne (ht.symm.trans hid)⟩, ht⟩
  live := by
    intro other ho
    obtain ⟨ho, hne⟩ := mem_erase.1 ho
    refine (find?_erase ..).trans ((if_neg fun hid => ?_).trans (h.live other ho))
    exact hne (h.taskId_of_operationId ho hm hid)
  owned := by
    intro live hlive
    obtain ⟨hlive, hne⟩ := mem_erase.1 hlive
    obtain ⟨other, ho, ht, hid⟩ := h.owned live hlive
    refine ⟨other, mem_erase.2 ⟨ho, fun heq => hne ?_⟩, ht, hid⟩
    obtain rfl := eq_of_key_eq ho hm heq
    exact hid.symm
  fresh := fun other ho => h.fresh other (mem_erase.1 ho).1

/-- **A task that has exited is taken up.** -/
theorem Inv.join {task : OperationTask}
    {joined : Except JoinError OperationTaskExit} (hr : s.reduction = none)
    (htask : task ∈ s.tasks) (hjoin : task.joined = some joined)
    (hd : d ∈ s.descriptors) (ht : d.taskId = task.taskId)
    (hacc : (s.control d.operationId).acceptingWorkers = false) :
    Inv { s with
      tasks := s.tasks.erase d.taskId
      descriptors := s.descriptors.erase d.taskId
      liveTasks := s.liveTasks.erase d.operationId
      reduction := some (.awaitingIdle joined d) } := by
  obtain ⟨place, hplace⟩ := h.placed
  have hheld : s.Held d.operationId := .inr (.inl ⟨d, hd, rfl⟩)
  -- An operation that had a task still has it, unless it is the one taken up.
  have hmove : ∀ other, s.HasTask other → other = d.operationId ∨
      ∃ task ∈ s.descriptors.erase d.taskId, task.operationId = other := by
    rintro _ ⟨other, hm, rfl⟩
    by_cases hid : other.taskId = d.taskId
    · exact .inl (congrArg _ (eq_of_key_eq hm hd hid))
    · exact .inr ⟨other, mem_erase.2 ⟨hm, hid⟩, rfl⟩
  have hkept : ∀ other ∈ s.descriptors.erase d.taskId, other ∈ s.descriptors :=
    fun other hm => (mem_erase.1 hm).1
  exact
    { h with
      placed := hplace.move .reducer (hplace.task d hd)
        (fun _ hcl => .inr ⟨hcl, by simp⟩) (fun _ hm => .inr ⟨hm, by simp⟩)
        (fun other hm => .inr ⟨hkept other hm, fun _ hid => (mem_erase.1 hm).2
          (h.linked.taskId_of_operationId (hkept other hm) hd hid)⟩)
        (by rintro _ ⟨⟩; exact .inl ⟨rfl, rfl⟩)
        fun _ hfresh => ⟨hfresh, by rintro rfl; exact hfresh (h.allocated_of_held hheld)⟩
      linked := Linked.join h.linked hd
      covered := by
        intro other hm
        refine (h.covered other hm).imp_right ?_
        rintro (hqueue | htask' | ⟨reduction, hsome, -⟩)
        · exact .inl hqueue
        · rcases hmove other htask' with rfl | htask'
          · exact .inr (.inr ⟨_, rfl, rfl⟩)
          · exact .inr (.inl htask')
        · cases hr.symm.trans hsome
      held := by
        rintro other (hqueue | ⟨task', hm, rfl⟩ | ⟨_, ⟨⟩, rfl⟩)
        · exact h.held other (.inl hqueue)
        · exact h.held _ (.inr (.inl ⟨task', hkept task' hm, rfl⟩))
        · exact h.held _ hheld
      exits := fun task' hm => h.exits task' (mem_erase.1 hm).1
      external := fun other hm => h.external other (hkept other hm)
      reducing := by
        rintro _ ⟨⟩
        refine ⟨hacc, fun exit hexit => ?_⟩
        obtain ⟨_, hown, hownId, howner, hk⟩ := h.linked.descriptor task htask
        obtain rfl := eq_of_key_eq hown hd (hownId.trans ht.symm)
        have hknown := h.exits task htask exit (hjoin.trans (congrArg some hexit))
        rw [← howner, ← hk] at hknown
        exact hknown
      launched := by
        intro other hm
        refine (h.launched other hm).imp_right ?_
        rintro (htask' | ⟨_, hsome, -⟩)
        · rcases hmove other htask' with rfl | htask'
          · exact .inr ⟨_, rfl, rfl⟩
          · exact .inl htask'
        · cases hr.symm.trans hsome
      tasked := fun other ⟨task', hm, hid⟩ => h.tasked other ⟨task', hkept task' hm, hid⟩
      reduced := by
        rintro _ ⟨⟩ -
        exact h.tasked _ ⟨d, hd, rfl⟩
      exited := fun he => absurd he (h.not_exited hheld) }

theorem inv_joinTask {taskId : ℕ} (hok : joinTask taskId s = .ok u s') : s'.Inv := by
  simp only [joinTask, bind_ok_iff, get_eq_ok, enabled_eq_ok, ofExcept_eq_ok, required_eq_ok] at hok
  obtain ⟨_, _, ⟨rfl, rfl⟩, _, _, ⟨⟨hr, -⟩, rfl⟩, task, _, ⟨hf, rfl⟩, _, _,
    ⟨hjoin, rfl⟩, hok⟩ := hok
  rw [Option.isNone_iff_eq_none] at hr
  obtain ⟨htask, rfl⟩ := find?_eq_some.1 hf
  obtain ⟨d, hd, ht, -⟩ := h.linked.descriptor task htask
  have hdescriptor' : s.descriptors.find? task.taskId = some d :=
    find?_eq_some.2 ⟨hd, ht⟩
  rw [hdescriptor'] at hok
  have hlive : ¬ (s.liveTasks.find? d.operationId).map (·.taskId) ≠ some task.taskId := by
    rw [h.linked.live d hd]
    simpa using ht
  dsimp only at hok
  rw [if_neg hlive] at hok
  rw [← set_eq_ok.1 hok, ← ht]
  have hall := h.allocated_of_held (.inr (.inl ⟨d, hd, rfl⟩))
  have hs : (s.updateControl d.operationId .stopAccepting).Inv :=
    h.updateControl _ { Tightened.refl _ _ _ with
      idle := fun _ => ⟨rfl, le_rfl⟩
      untouched := fun hfresh => absurd hall hfresh }
  refine hs.join hr htask hjoin hd ht ?_
  simp [Supervisor.updateControl, OperationControl.stopAccepting]

/-- **The reducer goes on** with the operation in its hands. -/
theorem Inv.setReduction {reduction' : Reduction} (hreduce : s.reduction = some reduction)
    (hid : reduction'.operationId = reduction.operationId)
    (hl : reduction'.operationId ∈ s.launched) (hknown : s.ReductionKnown reduction') :
    Inv { s with reduction := some reduction' } := by
  have hreduced : ∀ other, s.Reduced other ↔ other = reduction'.operationId := by
    intro other
    refine ⟨fun ⟨r, hr, ho⟩ => ?_, fun ho => ⟨reduction, hreduce, ?_⟩⟩
    · obtain rfl := Option.some.inj (hr.symm.trans hreduce)
      exact ho.symm.trans hid.symm
    · exact hid.symm.trans ho.symm
  have hreduced' : ∀ other, s.Reduced other →
      Reduced { s with reduction := some reduction' } other :=
    fun other ho => ⟨reduction', rfl, ((hreduced other).1 ho).symm⟩
  exact
    { h with
      placed := by
        obtain ⟨place, hplace⟩ := h.placed
        refine ⟨place, { hplace with reducer := ?_ }⟩
        rintro _ ⟨⟩
        exact hid ▸ hplace.reducer reduction hreduce
      covered := fun other hm =>
        (h.covered other hm).imp_right (Or.imp_right (Or.imp_right (hreduced' other)))
      held := by
        rintro other (hqueue | htask | ⟨_, ⟨⟩, ho⟩)
        · exact h.held other (.inl hqueue)
        · exact h.held other (.inr (.inl htask))
        · exact h.held other (.inr (.inr ((hreduced other).2 ho.symm)))
      reducing := by
        rintro _ ⟨⟩
        cases reduction' <;> exact hknown
      launched := fun other hm =>
        (h.launched other hm).imp_right (Or.imp_right (hreduced' other))
      reduced := by
        rintro _ ⟨⟩ -
        exact hl
      exited := fun hexit => absurd hexit (h.not_exited (.inr (.inr ⟨reduction, hreduce, rfl⟩))) }

/-- **The reducer lets an operation go** that is over. -/
theorem Inv.letGo (hreducer : s.reduction = some reduction)
    (hover : s.Over reduction.operationId)
    (hquiet : s.Quiet reduction.operationId ∨ reduction.operationId ∉ s.launched) :
    Inv { s with reduction := none } := by
  have hreduced : ∀ other, s.Reduced other → other = reduction.operationId := by
    rintro other ⟨_, hr, ho⟩
    obtain rfl := Option.some.inj (hr.symm.trans hreducer)
    exact ho.symm
  exact
    { h with
      placed := by
        obtain ⟨place, hplace⟩ := h.placed
        exact ⟨place, { hplace with reducer := fun _ hn => by cases hn }⟩
      covered := by
        intro other hm
        rcases h.covered other hm with ho | hqueue | htask | ho
        · exact .inl ho
        · exact .inr (.inl hqueue)
        · exact .inr (.inr (.inl htask))
        · exact .inl (hreduced other ho ▸ hover)
      held := by
        rintro other (hqueue | htask | ⟨_, ⟨⟩, -⟩)
        · exact h.held other (.inl hqueue)
        · exact h.held other (.inr (.inl htask))
      reducing := fun _ hn => by cases hn
      launched := by
        intro other hm
        rcases h.launched other hm with ho | htask | ho
        · exact .inl ho
        · exact .inr (.inl htask)
        · obtain rfl := hreduced other ho
          exact .inl (hquiet.resolve_right fun hno => hno hm)
      reduced := fun _ hn => by cases hn
      exited := fun hexit => absurd hexit (h.not_exited (.inr (.inr ⟨reduction, hreducer, rfl⟩))) }

/-- The cleanup of an operation has run. -/
theorem Inv.clean (op : Text) :
    Inv { s with cleaned := Insert.insert op s.cleaned } := by
  have hquiet : ∀ other, s.Quiet other →
      Quiet { s with cleaned := Insert.insert op s.cleaned } other :=
    fun other ho => ⟨ho.1, Finset.mem_insert_of_mem ho.2⟩
  exact
    { h with
      external := fun d hm hk => hquiet _ (h.external d hm hk)
      reducing := by
        intro reduction hr
        have hknown := h.reducing reduction hr
        cases reduction with
        | awaitingIdle | cleaning | drained => exact hknown
        | ending | exiting | reading | respawning | finishing => exact ⟨hquiet _ hknown.1, hknown.2⟩
      launched := fun other hm => (h.launched other hm).imp_left (hquiet other)
      ended := fun r hm ht =>
        (h.ended r hm ht).imp_right (Or.imp_left (hquiet _)) }

end Moves

/-! ### Going on with a task that has exited -/

section Reduce

variable {d : TaskDescriptor} {cleanupError : Option Text}

variable {exit : OperationTaskExit} {change : RuntimeOperationTransition}
  {disposition : TransitionDisposition} {registry : RegistryState ext}
  {joined : Except JoinError OperationTaskExit} {reduction : Reduction}

/-- What an exit calls for: it is always understood, and the transition leaves the operation over,
or waiting if that is what the reducer looks for next. -/
theorem exitTransition_spec (hknown : s.ExitKnown d.operationId d.kind exit) :
    ∃ descriptor' change retainExternal,
      exitTransition exit d = .ok (descriptor', change, retainExternal) ∧
      descriptor'.operationId = d.operationId ∧
      (change = none → s.Over d.operationId) ∧
      ∀ transition, change = some transition → transition.isGentle = false ∧
        (retainExternal = false → transition.ends = true) ∧
        ((∃ error, transition = .cancellationUnconfirmed error) → s.Stops d.operationId) := by
  cases exit with
  | execution _ result =>
    obtain ⟨hid, hk, hstop⟩ := hknown
    refine ⟨d.noting result, some (transitionForExecutionResult result), true, ?_, ?_, ?_, ?_⟩
    · simp [exitTransition, hid, hk]
    · unfold TaskDescriptor.noting
      split <;> rfl
    · simp
    · rintro _ ⟨⟩
      refine ⟨?_, by simp, ?_⟩
      · unfold transitionForExecutionResult
        split <;> rfl
      · rintro ⟨_, herr⟩
        unfold transitionForExecutionResult at herr
        split at herr <;> first | exact hstop _ rfl | cases herr
  | external _ result =>
    obtain ⟨hid, hk, hover⟩ := hknown
    cases result with
    | settled =>
      exact ⟨d, none, false, by simp [exitTransition, hid, hk], rfl, fun _ => hover rfl, by simp⟩
    | deadline | shutdown =>
      refine ⟨d, some _, false, by simp [exitTransition, hid, hk]; rfl, rfl, by simp, ?_⟩
      rintro _ ⟨⟩
      exact ⟨rfl, fun _ => rfl, by simp⟩
    | cleanupSettlementGraceElapsed =>
      refine ⟨{ d with externalWaitPolicy := .cleanupEvidence }, some _, true,
        by simp [exitTransition, hid, hk]; rfl, rfl, by simp, ?_⟩
      rintro _ ⟨⟩
      exact ⟨rfl, by simp, by simp⟩

variable (h : s.Inv)

include h

/-- An operation of which nothing runs is transitioned. -/
theorem Inv.transitioned (hret : s.Retired op)
    (hc : transition readings op change s.registry = .ok disposition registry) :
    Inv { s with registry } :=
  h.changed (P := (· = op)) (transition_changed hc (.inr rfl)) fun _ hid => hid ▸ hret

theorem inv_reduce_awaitingIdle (hr : s.reduction = some (.awaitingIdle joined d))
    (hac : (s.control d.operationId).activeWorkers = 0) :
    Inv { s with reduction := some (.cleaning joined d) } := by
  obtain ⟨hacc, hexit⟩ := h.reducing _ hr
  have hl := h.reduced _ hr (by simp)
  exact h.setReduction hr rfl hl ⟨⟨hacc, hac⟩, hexit⟩

theorem inv_reduce_cleaning (hr : s.reduction = some (.cleaning joined d))
    (hok : reduce readings cleanupError s = .ok u s') : s'.Inv := by
  obtain ⟨hidle, hexit⟩ := h.reducing _ hr
  have hl := h.reduced _ hr (by simp)
  have hs := h.clean d.operationId
  have hquiet : Quiet { s with cleaned := Insert.insert d.operationId s.cleaned }
      d.operationId := ⟨hidle, Finset.mem_insert_self _ _⟩
  simp only [reduce, get_bind] at hok
  rw [hr] at hok
  obtain ⟨-, rfl⟩ := enabled_set_eq_ok.1 hok
  cases cleanupError with
  | some _ => exact hs.setReduction hr rfl hl ⟨hquiet, rfl⟩
  | none =>
    cases joined with
    | error error =>
      refine hs.setReduction hr rfl hl ⟨hquiet, ?_⟩
      cases error <;> rfl
    | ok exit => exact hs.setReduction hr rfl hl ⟨hquiet, hexit exit rfl⟩

theorem inv_reduce_ending (hr : s.reduction = some (.ending change d))
    (hc : transition readings d.operationId change s.registry = .ok disposition registry) :
    Inv { s with registry, reduction := some (.finishing d) } := by
  obtain ⟨hquiet, hends⟩ := h.reducing _ hr
  have hl := h.reduced _ hr (by simp)
  exact (h.transitioned (.inl hquiet) hc).setReduction hr rfl hl
    ⟨hquiet, fun _ hm hid => transition_ends hc hends hm hid⟩

theorem inv_reduce_exiting (hreduce : s.reduction = some (.exiting exit d))
    (hok : reduce readings cleanupError s = .ok u s') : s'.Inv := by
  obtain ⟨hquiet, hknown⟩ := h.reducing _ hreduce
  have hl : d.operationId ∈ s.launched := h.reduced _ hreduce (by simp)
  obtain ⟨_, change, _, heq, hid, hn, hsome⟩ := exitTransition_spec hknown
  rw [← hid] at hquiet hl hn hsome
  simp only [reduce, onRegistry, get_bind] at hok
  rw [hreduce] at hok
  dsimp only at hok
  rw [heq] at hok
  cases change with
  | none =>
    rw [← modify_eq_ok.1 hok]
    exact h.setReduction hreduce hid hl ⟨hquiet, fun r hm hr =>
      isWaiting_of_isTerminal (hn rfl r hm hr), fun _ => hn rfl⟩
  | some change =>
    obtain ⟨hgen, hends, hstop⟩ := hsome change rfl
    simp only [Option.forM, bind_ok_iff, zoom_eq_ok, modify_eq_ok] at hok
    obtain ⟨_, _, ⟨_, _, ⟨_, hc, rfl⟩, -, rfl⟩, rfl⟩ := hok
    have hs := h.transitioned (.inl hquiet) hc
    exact hs.setReduction hreduce hid hl ⟨hquiet, fun r hm hr =>
      transition_waits hc hgen hstop hm hr, fun hret _ hm hr =>
      transition_ends hc (hends hret) hm hr⟩

/-- The reducer lets an operation go, and gives its permit back. -/
theorem Inv.letGo_release (hr : s.reduction = some reduction)
    (hover : s.Over reduction.operationId)
    (hquiet : s.Quiet reduction.operationId ∨ reduction.operationId ∉ s.launched) :
    Inv ({ s with reduction := none }.release reduction.operationId) ∧
      ¬ Held ({ s with reduction := none }.release reduction.operationId) reduction.operationId ∧
      s.clients reduction.operationId = none := by
  have hreduced : s.Reduced reduction.operationId := ⟨reduction, hr, rfl⟩
  obtain ⟨hqueue, htask⟩ := h.reduced_only hreduced
  have hn := h.client_none (.inr (.inr hreduced))
  have hu : ¬ Held { s with reduction := none } reduction.operationId := by
    rintro (hm | hm | ⟨_, ⟨⟩, -⟩)
    · exact hqueue hm
    · exact htask hm
  refine ⟨(h.letGo hr hover hquiet).release hu fun _ hst => ?_, hu, hn⟩
  cases hn.symm.trans hst

theorem inv_reduce_reading {retainExternal : Bool}
    (hreduce : s.reduction = some (.reading retainExternal d))
    (hok : reduce readings cleanupError s = .ok u s') : s'.Inv := by
  obtain ⟨hquiet, hwait, hover⟩ := h.reducing _ hreduce
  have hl := h.reduced _ hreduce (by simp)
  have hheld : s.Held d.operationId := .inr (.inr ⟨_, hreduce, rfl⟩)
  simp only [reduce, onRegistry, get_bind] at hok
  rw [hreduce] at hok
  simp only [bind_ok_iff, zoom_eq_ok] at hok
  obtain ⟨records, _, ⟨registry, hi, rfl⟩, hok⟩ := hok
  have hs := h.gentle (inspect_changed hi)
  have hforsaken := changedFor_of_changed (P := fun _ => False) (inspect_changed hi) d.operationId
  cases hf : records.find? d.operationId with rw [hf] at hok
  | none =>
    rw [← modify_eq_ok.1 hok]
    have hgone : Over { s with registry } d.operationId := fun r hm hid =>
      absurd hid (find?_eq_none.1 hf r (inspect_records hi ▸ hm))
    obtain ⟨hrel, -, -⟩ := hs.letGo_release hreduce hgone (.inl hquiet)
    refine hrel.setReducer _ ?_ (fun hexit => absurd hexit (h.not_exited hheld)) ?_
      fun hc => absurd hc (h.not_closed hheld)
    · split_ifs <;> simp
    · rintro ⟨_, hmode⟩
      split_ifs at hmode
  | some r =>
    rw [← modify_eq_ok.1 hok]
    obtain ⟨hr, hid⟩ := find?_eq_some.1 hf
    have hm : r ∈ registry.records := inspect_records hi ▸ hr
    split_ifs with hwaits
    · exact hs.setReduction hreduce rfl hl ⟨hquiet, rfl⟩
    · refine hs.setReduction hreduce rfl hl ⟨hquiet, fun r' hmem' hid' => ?_⟩
      obtain rfl := eq_of_key_eq hmem' hm (hid'.trans hid.symm)
      cases hret : retainExternal with
      | false => exact (hover hret).changed hforsaken r' hm hid
      | true =>
        -- It waits for a module or is over, and it was found not to wait.
        have hstatus := hwait.changed hforsaken r' hm hid
        simp only [hret, Bool.true_and, Bool.or_eq_true, decide_eq_true_eq, not_or] at hwaits
        simpa [OperationStatus.isWaiting, hwaits.1, hwaits.2] using hstatus

theorem inv_reduce_respawning (hr : s.reduction = some (.respawning d)) :
    (s.spawnOperationTask d).Inv := by
  obtain ⟨hquiet, -⟩ := h.reducing _ hr
  have hl : d.operationId ∈ s.launched := h.reduced _ hr (by simp)
  have hreduced : s.Reduced d.operationId := ⟨_, hr, rfl⟩
  obtain ⟨hqueue, htask⟩ := h.reduced_only hreduced
  rw [spawnOperationTask_eq (h.not_live htask)]
  have hcm : ∀ other, other ∈ s.commands ↔ other ∈ s.commands ∧ other ≠ d.operationId := fun _ =>
    ⟨fun hm => ⟨hm, fun hid => hqueue (hid ▸ hm)⟩, And.left⟩
  have hs := h.spawn (.inr ⟨hreduced, hl⟩) hcm h.nodup
    (fun _ hsome => by obtain rfl := Option.some.inj (hsome.symm.trans hr); rfl)
    fun _ => hquiet
  rw [Finset.insert_eq_of_mem hl] at hs
  exact hs

/-- The operation is over, and its control goes with its permit. -/
theorem inv_reduce_last (hr : s.reduction = some reduction) (hover : s.Over reduction.operationId)
    (hquiet : s.Quiet reduction.operationId ∨ reduction.operationId ∉ s.launched) :
    Inv { s.release reduction.operationId with
      controls := s.controls.erase reduction.operationId
      reduction := none } := by
  obtain ⟨hrel, hu, hn⟩ := h.letGo_release hr hover hquiet
  have hnone' : ∀ stage, s.clients reduction.operationId ≠ some stage := by simp [hn]
  exact hrel.eraseControl hu ⟨hnone' _, hnone' _⟩

theorem inv_reduce (hok : reduce readings cleanupError s = .ok u s') : s'.Inv := by
  cases hr : s.reduction with
  | none =>
    simp only [reduce, get_bind] at hok
    rw [hr] at hok
    cases hok
  | some reduction =>
    cases reduction with
    | exiting => exact inv_reduce_exiting h hr hok
    | reading => exact inv_reduce_reading h hr hok
    | cleaning => exact inv_reduce_cleaning h hr hok
    | awaitingIdle =>
      simp only [reduce, get_bind] at hok
      rw [hr] at hok
      obtain ⟨hac, rfl⟩ := enabled_set_eq_ok.1 hok
      exact inv_reduce_awaitingIdle h hr hac
    | ending =>
      simp only [reduce, onRegistry, get_bind] at hok
      rw [hr] at hok
      simp only [bind_ok_iff, zoom_eq_ok, modify_eq_ok] at hok
      obtain ⟨_, _, ⟨_, hc, rfl⟩, rfl⟩ := hok
      have hend := inv_reduce_ending h hr hc
      exact hend
    | respawning =>
      simp only [reduce, get_bind] at hok
      rw [hr] at hok
      rw [← set_eq_ok.1 hok]
      exact inv_reduce_respawning h hr
    | finishing =>
      simp only [reduce, get_bind] at hok
      rw [hr] at hok
      rw [← set_eq_ok.1 hok]
      obtain ⟨hquiet, hover⟩ := h.reducing _ hr
      exact inv_reduce_last h hr hover (.inl hquiet)
    | drained =>
      simp only [reduce, get_bind] at hok
      rw [hr] at hok
      rw [← set_eq_ok.1 hok]
      obtain ⟨hu, hover⟩ := h.reducing _ hr
      exact inv_reduce_last h hr hover (.inr hu)

end Reduce

end Supervisor

end LogosInspector.Operations
