import LogosInspector.Operations.RegistryUse
import LogosInspector.Operations.Settlement

/-!
# A backup is imported only when nothing runs

While an import has the gate active, operations that it affects cannot be started, and those that
were running when it claimed the gate are in the list that it works off: each leaves this list only
when it is over. So none is left when the store is called. What the import has stopped itself it
starts again once, and after that it releases the gate.
-/

namespace LogosInspector.Operations

open Mutation Table

open SettingsBackup

variable {ext : OperationExternals}

/-! ### What the operations do to their records -/

variable {req : RuntimeOperationRequest ext}

namespace Supervisor

variable {s s' : Supervisor ext} {u : Unit}

theorem changed_keptByCalls :
    KeptByCalls
      (RegistryChanged (fun _ => True) : RegistryState ext → RegistryState ext → Prop) where
  transition readings _ _ := keeps_transition (changed_upheld _) readings (.inr trivial)
  ingest readings event := keeps_ingestModuleEventWithSettlement (changed_upheld _) readings event
  inspect readings := keeps_inspect (changed_upheld _) readings
  remove op := keeps_removeRecord op

/-- Whatever is done to the operations apart from starting one, their records are changed as calls
of the registry change them. -/
theorem perform_changed (action : Action ext) (hfree : ImportSystem.isFree action = true)
    (hok : action.perform s = .ok u s') : RegistryChanged (fun _ => True) s.registry s'.registry :=
  (keeps_perform changed_keptByCalls action hfree s).of_ok hok

theorem prepare_registry {op : Text} {disposableFile : Bool}
    (hok : prepare op disposableFile s = .ok u s') : s'.registry = s.registry := by
  obtain ⟨-, rfl⟩ := guarded_set_eq_ok.1 hok
  rfl

theorem insertRecord_evolves {readings : Readings ext} {op : Text} {now : ℕ}
    (hok : insertRecord readings op req now s = .ok u s') :
    StateEvolves (Changed fun _ => True) (runningRuntimeOperationRecord op req now = ·)
      s.registry s'.registry := by
  obtain ⟨-, hok⟩ := guarded_eq_ok.1 hok
  have he := insert_changed (fun _ => True) readings op req now s.registry
  cases hi : Operations.insert readings (runningRuntimeOperationRecord op req now) s.registry with
    rw [hi] at hok
  | ok _ _ =>
    rw [← set_eq_ok.1 hok]
    exact he.of_ok hi
  | error _ _ =>
    rw [← set_eq_ok.1 hok]
    exact he.of_error hi

end Supervisor

/-! ### The invariant -/

/-- The decisions that a call is working off before the store is called. -/
def ImportStage.pending : ImportStage ext → List (OperationDecision ext)
  | .requesting decisions requested => requested.map Prod.fst ++ decisions
  | .waiting requested awaiting => requested.map Prod.fst ++ awaiting.map Prod.fst
  | .reconciling awaiting => awaiting.map Prod.fst
  | _ => []

/-- All decisions that a call has at its stage. -/
def ImportStage.decisions : ImportStage ext → List (OperationDecision ext)
  | .restarting decisions _ _ => decisions
  | stage => stage.pending

/-- Which operations that are affected may be running at a stage. -/
def ImportStage.Covers (stage : ImportStage ext) (committed : Bool) (restarts : List Text)
    (operationId : Text) : Prop :=
  match stage with
  | .requesting .. | .waiting .. => operationId ∈ stage.pending.map (·.operationId)
  | .restoring => False
  | .restarting .. | .returning _ | .returned _ => committed = true → operationId ∈ restarts
  | _ => True

namespace ImportCall

/-- The call has not been left. -/
def IsActive (call : ImportCall ext) : Prop := ∀ outcome, call.stage ≠ .returned outcome

/-- What a call owes to the operations that it has canceled. -/
def Accounted (call : ImportCall ext) : Prop :=
  match call.stage with
  | .allocating | .previewing | .planning _ | .requesting .. =>
    call.committed = false ∧ call.canceled = [] ∧ call.stopped = [] ∧ call.restarted = []
  | .waiting .. | .reconciling _ =>
    call.committed = false ∧ call.stopped = call.canceled ∧ call.restarted = []
  | .restoring => call.stopped = call.canceled ∧ call.restarted = []
  | .restarting decisions _ (some outcome) => outcome ≠ .recoveryRequired ∧
    call.stopped = [] ∧ call.restarted ++ decisions = call.canceled
  | .returning (some outcome) | .returned (some outcome) => call.stopped = [] ∧
    call.restarted = if outcome = .recoveryRequired then [] else call.canceled
  | .restarting _ _ none | .returning none | .returned none => True

end ImportCall

/-- A decision to stop an operation and to start it again. -/
def OperationDecision.Sound (catalogue : OperationCatalogue ext)
    (decision : OperationDecision ext) : Prop :=
  decision.restartEligible = true ∧ ∃ request, decision.request = some request ∧
    (catalogue.requestDefinition request).cancellable = true ∧
    (catalogue.requestDefinition request).safeToRestart = true

/-- **The invariant of one call**, given the operations that it affects and that are not over. -/
structure ImportCall.Inv (catalogue : OperationCatalogue ext) (affected : Text → Prop)
    (call : ImportCall ext) : Prop where
  sound : ∀ decision ∈ call.canceled ++ call.stopped ++ call.restarted ++ call.stage.decisions,
    decision.Sound catalogue
  nodup : ((call.canceled ++ call.stage.pending).map (·.operationId)).Nodup
  covered : call.released = false → ∀ operationId, affected operationId →
    call.stage.Covers call.committed call.restarts operationId
  accounted : call.Accounted
  unstarted : call.restarted = [] → call.restarts = [] ∧
    ∀ decisions start outcome, call.stage ≠ .restarting decisions (some start) outcome
  named : ∀ decisions request operationId outcome,
    call.stage = .restarting decisions (some ⟨request, some operationId⟩) outcome →
    operationId ∈ call.restarts

variable {catalogue : OperationCatalogue ext}

theorem ImportCall.Inv.of_affected {call : ImportCall ext} {affected affected' : Text → Prop}
    (h : call.Inv catalogue affected) (hsub : call.released = false → ∀ op, affected' op →
        affected op ∨ call.stage.Covers call.committed call.restarts op) :
    call.Inv catalogue affected' :=
  { h with
    covered := fun hrel op ha =>
      (hsub hrel op ha).elim (h.covered hrel op) id }

/-- What a call becomes when it goes on. -/
structure ImportCall.Continues (catalogue : OperationCatalogue ext) (affected : Text → Prop)
    (call call' : ImportCall ext) : Prop where
  key : call'.key = call.key
  selection : call'.selection = call.selection
  released : call'.released = call.released
  inv : call'.Inv catalogue affected

section Calls

variable {affected : Text → Prop} {call : ImportCall ext}

theorem ImportCall.IsActive.of_stage {stage : ImportStage ext} (hst : call.stage = stage)
    (hstage' : ∀ outcome, stage ≠ .returned outcome) : call.IsActive := by
  intro outcome
  rw [hst]
  exact hstage' outcome

variable (h : call.Inv catalogue affected)

include h

/-- A call fails, wherever it is. -/
theorem ImportCall.Inv.fail :
    call.Continues catalogue affected call.fail where
  key := rfl
  selection := rfl
  released := rfl
  inv :=
    { sound := fun decision hm => h.sound decision (by
        simp only [ImportCall.fail, ImportStage.decisions, ImportStage.pending, List.append_nil,
          List.mem_append] at hm ⊢
        exact .inl hm)
      nodup := by
        refine h.nodup.sublist (List.Sublist.map _ ?_)
        simp [ImportCall.fail, ImportStage.pending]
      covered := by
        intro hrel op ha hc
        have hcovers := h.covered hrel op ha
        have hacc := h.accounted
        have hc' : call.committed = true := hc
        unfold ImportCall.Accounted at hacc
        cases hst : call.stage with
        | restarting | returning | returned =>
          rw [hst] at hcovers
          exact hcovers hc
        | restoring =>
          rw [hst] at hcovers
          exact hcovers.elim
        | _ =>
          rw [hst] at hacc
          cases hacc.1.symm.trans hc'
      accounted := trivial
      unstarted := fun hn => ⟨(h.unstarted hn).1, by simp [ImportCall.fail]⟩
      named := by simp [ImportCall.fail] }

/-- A call goes to its next phase, or fails. -/
theorem ImportCall.Inv.transition {next : BackupImportPhase} {go : ImportCall ext → ImportCall ext}
    (hgo : call.Continues catalogue affected (go { call with phase := next })) :
    call.Continues catalogue affected (call.transition next go) := by
  unfold ImportCall.transition
  split_ifs
  · exact hgo
  · exact h.fail

/-- A call that has done nothing to the operations. -/
structure ImportCall.Untouched (call : ImportCall ext) : Prop where
  committed : call.committed = false
  canceled : call.canceled = []
  stopped : call.stopped = []
  restarted : call.restarted = []
  restarts : call.restarts = []

/-- Stages at which a call has no decisions. -/
def ImportStage.isPlain : ImportStage ext → Bool
  | .allocating | .previewing | .planning _ | .returning _ | .returned _ => true
  | _ => false

omit h in
theorem ImportCall.Untouched.inv (h : call.Untouched) (hplain : call.stage.isPlain = true) :
    call.Inv catalogue affected := by
  obtain ⟨hcommitted, hc, hstop, hrestarted, hres⟩ := h
  have hdec : call.stage.decisions = [] := by
    cases hst : call.stage <;> first | rfl | simp [hst, ImportStage.isPlain] at hplain
  have hp : call.stage.pending = [] := by
    cases hst : call.stage <;> first | rfl | simp [hst, ImportStage.isPlain] at hplain
  have hstart : ∀ decisions start outcome, call.stage ≠ .restarting decisions start outcome := by
    rintro decisions start outcome hst
    simp [hst, ImportStage.isPlain] at hplain
  refine ⟨?_, ?_, fun _ _ _ => ?_, ?_, fun _ => ⟨hres, fun _ _ _ => hstart _ _ _⟩,
    fun _ _ _ _ hst => absurd hst (hstart _ _ _)⟩
  · simp [hc, hstop, hrestarted, hdec]
  · simp [hc, hp]
  · cases hst : call.stage with
    | allocating | previewing | planning => exact trivial
    | returning | returned => exact fun hno => by simp [hcommitted] at hno
    | _ => simp [hst, ImportStage.isPlain] at hplain
  · unfold ImportCall.Accounted
    cases hst : call.stage with
    | returning outcome | returned outcome => cases outcome <;> simp [hc, hstop, hrestarted]
    | _ => simp_all [ImportStage.isPlain]

omit h in
theorem ImportCall.Untouched.goesOn (h : call.Untouched) {stage : ImportStage ext}
    (hplain : stage.isPlain = true) {importId : Text} {phase : BackupImportPhase} :
    call.Continues catalogue affected { call with importId, phase, stage } :=
  ⟨rfl, rfl, rfl, Untouched.inv ⟨h.committed, h.canceled, h.stopped, h.restarted,
    h.restarts⟩ hplain⟩

/-- Before operations are canceled, nothing has been done to them. -/
theorem ImportCall.Inv.untouched
    (hacc : call.committed = false ∧ call.canceled = [] ∧ call.stopped = [] ∧
      call.restarted = []) : call.Untouched :=
  ⟨hacc.1, hacc.2.1, hacc.2.2.1, hacc.2.2.2, (h.unstarted hacc.2.2.2).1⟩

end Calls

namespace ImportGate

def isClosing : ImportGate → Bool
  | .idle => false
  | .closing => true
  | .active _ _ requested | .recoveryRequired _ _ requested => requested

end ImportGate

namespace ImportSystem

/-- A record of an operation that is not over and that a selection affects. -/
def Affected (catalogue : OperationCatalogue ext) (selection : BackupImportSelection)
    (record : RuntimeOperationRecord ext) : Prop :=
  record.operation.status.isTerminal = false ∧ ∃ request, record.restartRequest = some request ∧
    selectionAffects selection (catalogue.requestMethod request) = true

/-- The operations that are not over and that a selection affects. -/
def AffectedId (catalogue : OperationCatalogue ext) (registry : RegistryState ext)
    (selection : BackupImportSelection) (operationId : Text) : Prop :=
  ∃ record ∈ registry.records, record.operation.operationId = operationId ∧
    Affected catalogue selection record

/-- What is known of the record of an operation that is not over. -/
def Known (catalogue : OperationCatalogue ext) (record : RuntimeOperationRecord ext) : Prop :=
  record.operation.status.isTerminal = false → ∃ request, record.restartRequest = some request ∧
    catalogue.Defines request ∧ record.operation.cancellable = request.cancellable

/-- **The invariant of the system.** -/
structure Inv (catalogue : OperationCatalogue ext) (s : ImportSystem ext) : Prop where
  known : ∀ record ∈ s.operations.registry.records, Known catalogue record
  fresh : ∀ call ∈ s.imports, call.key < s.nextKey
  left : ∀ call ∈ s.imports, call.released = true → ∃ outcome, call.stage = .returned outcome
  single : ∀ call ∈ s.imports, call.released = false → ∀ call' ∈ s.imports,
    call'.released = false → call = call'
  gate : ∀ call ∈ s.imports, call.released = false → s.gate.selection = some call.selection
  calls : ∀ call ∈ s.imports,
    call.Inv catalogue (AffectedId catalogue s.operations.registry call.selection)
  starting : ∀ start, s.starting = some start → ∀ selection, s.gate.selection = some selection →
    selectionAffects selection (catalogue.requestMethod start.request) = false
  closed : s.closeRequested = true → s.gate.isClosing = true

variable {s s' : ImportSystem ext} {u : Unit}

/-! ### Changes of the state -/

variable {P : Text → Prop} {op : Text} {call : ImportCall ext}

theorem AffectedId.of_changed {registry registry' : RegistryState ext}
    {selection : BackupImportSelection}
    (hch : RegistryChanged P registry registry')
    (h : AffectedId catalogue registry' selection op) :
    AffectedId catalogue registry selection op := by
  obtain ⟨_, hm, hid, hrun, req, hreq, ha⟩ := h
  obtain ⟨r, hr, hfrom⟩ := hch.origin hm
  refine ⟨r, hr, hfrom.operationId.symm.trans hid, ?_, req, ?_, ha⟩
  · rw [← Bool.not_eq_true]
    intro hover
    simp [(hfrom.stays hover).1] at hrun
  · exact (hfrom.request hrun).symm.trans hreq

theorem Known.of_changed {r r' : RuntimeOperationRecord ext}
    (hch : Changed P r r') (h : Known catalogue r) :
    Known catalogue r' := by
  intro hrun
  have hb : r.operation.status.isTerminal = false := by
    rw [← Bool.not_eq_true]
    intro hover
    simp [(hch.stays hover).1] at hrun
  obtain ⟨req, hreq, hdef, hc⟩ := h hb
  exact ⟨req, (hch.request hrun).trans hreq, hdef, hch.cancellable.trans hc⟩

section

variable (h : s.Inv catalogue)

include h

/-- The operations go on. -/
theorem Inv.operate {operations : Supervisor ext}
    (hch : RegistryChanged (fun _ => True) s.operations.registry operations.registry) :
    Inv catalogue { s with operations } :=
  { h with
    known := by
      intro _ hm
      obtain ⟨r, hr, hfrom⟩ := hch.origin hm
      exact (h.known r hr).of_changed hfrom
    calls := fun call hm =>
      (h.calls call hm).of_affected fun _ _ ha => .inl (ha.of_changed hch) }

section

variable (hm : call ∈ s.imports)

include hm

theorem Inv.released_eq_false (hac : call.IsActive) : call.released = false := by
  rw [← Bool.not_eq_true]
  intro hrel
  obtain ⟨outcome, hst⟩ := h.left call hm hrel
  exact hac outcome hst

theorem Inv.covers (hac : call.IsActive)
    (ha : AffectedId catalogue s.operations.registry call.selection op) :
    call.stage.Covers call.committed call.restarts op :=
  (h.calls call hm).covered (h.released_eq_false hm hac) op ha

omit hm in
/-- A call is put in its place while no other call holds the gate, which may change. -/
theorem Inv.insertCall {gate : ImportGate} {nextKey : ℕ}
    (hquiet : ∀ other ∈ s.imports, other.key ≠ call.key → ¬ other.released = false)
    (hnext : s.nextKey ≤ nextKey) (hkey : call.key < nextKey)
    (hleft : call.released = true → ∃ outcome, call.stage = .returned outcome)
    (hgate : call.released = false → gate.selection = some call.selection)
    (hc : call.Inv catalogue (AffectedId catalogue s.operations.registry call.selection))
    (hs : ∀ start, s.starting = some start → ∀ selection, gate.selection = some selection →
      selectionAffects selection (catalogue.requestMethod start.request) = false)
    (hclosed : s.closeRequested = true → gate.isClosing = true) :
    Inv catalogue { s with imports := s.imports.insert call, gate, nextKey } where
  known := h.known
  fresh other hm := by
    rcases mem_insert.1 hm with rfl | ⟨hm, -⟩
    · exact hkey
    · exact (h.fresh other hm).trans_le hnext
  left other hm hrel := by
    rcases mem_insert.1 hm with rfl | ⟨hm, -⟩
    · exact hleft hrel
    · exact h.left other hm hrel
  single one hone hone' two htwo htwo' := by
    rcases mem_insert.1 hone with rfl | ⟨hone, hne⟩
    · rcases mem_insert.1 htwo with rfl | ⟨htwo, hne⟩
      · rfl
      · exact absurd htwo' (hquiet two htwo hne)
    · exact absurd hone' (hquiet one hone hne)
  gate other hm hheld := by
    rcases mem_insert.1 hm with rfl | ⟨hm, hne⟩
    · exact hgate hheld
    · exact absurd hheld (hquiet other hm hne)
  calls other hm := by
    rcases mem_insert.1 hm with rfl | ⟨hm, -⟩
    · exact hc
    · exact h.calls other hm
  starting := hs
  closed := hclosed

theorem Inv.quiet (hac : call.IsActive) :
    ∀ other ∈ s.imports, other.key ≠ call.key → ¬ other.released = false :=
  fun other ho hne hheld => hne (congrArg _
    (h.single other ho hheld call hm (h.released_eq_false hm hac)))

/-- One call goes on. -/
theorem Inv.setCall {call' : ImportCall ext} (hac : call.IsActive) (hc : call.Continues catalogue
      (AffectedId catalogue s.operations.registry call.selection) call') :
    (s.setCall call').Inv catalogue := by
  obtain ⟨hkey, hs, hrel, hc⟩ := hc
  have hheld := h.released_eq_false hm hac
  refine h.insertCall (hkey ▸ h.quiet hm hac) le_rfl (hkey ▸ h.fresh call hm)
    (fun hrel' => ?_) (fun _ => ?_) (hs ▸ hc) h.starting h.closed
  · cases (hrel.trans hheld).symm.trans hrel'
  · exact (h.gate call hm hheld).trans (congrArg some hs.symm)

end

/-- The gate changes while nobody starts an operation. -/
theorem Inv.setGate {gate : ImportGate} (hs : s.starting = none)
    (hgate : gate.selection = s.gate.selection)
    (hc : s.gate.isClosing = true → gate.isClosing = true) : Inv catalogue { s with gate } :=
  { h with
    gate := fun call hm hheld => hgate.trans (h.gate call hm hheld)
    starting := fun _ hsome => by cases hs.symm.trans hsome
    closed := fun hreq => hc (h.closed hreq) }

end

/-! ### Starting operations -/

section Starting

theorem inv_operate (h : s.Inv catalogue) {action : Supervisor.Action ext}
    (hok : operate action s = .ok u s') : s'.Inv catalogue := by
  simp only [ImportSystem.operate, onOperations, bind_ok_iff, enabled_eq_ok, zoom_eq_ok] at hok
  obtain ⟨_, _, ⟨hfree, rfl⟩, _, hp, rfl⟩ := hok
  exact h.operate (Supervisor.perform_changed action hfree hp)

theorem inv_operationPermit (h : s.Inv catalogue)
    (hok : operationPermit catalogue req s = .ok u s') : s'.Inv catalogue := by
  obtain ⟨-, hok⟩ := guarded_eq_ok.1 hok
  split_ifs at hok with hc ha
  · cases hok
  · cases hok
  · rw [← set_eq_ok.1 hok]
    refine { h with starting := ?_ }
    rintro _ ⟨⟩ _ hs
    simpa [hs] using ha

variable {key : ℕ} {start : StartCall ext} {who : Option ℕ}

/-- What an import is starting. -/
theorem startOf_some (h : s.startOf (some key) = some start) :
    ∃ call ∈ s.imports, s.imports.find? key = some call ∧
      ∃ decisions outcome, call.stage = .restarting decisions (some start) outcome := by
  unfold startOf at h
  dsimp only at h
  cases hf : s.imports.find? key with rw [hf] at h
  | none => cases h
  | some call =>
    dsimp only at h
    cases hst : call.stage with rw [hst] at h
    | restarting decisions _ outcome =>
      exact ⟨call, (find?_eq_some.1 hf).1, rfl, decisions, outcome, h ▸ hst⟩
    | _ => cases h

theorem setStart_some {decisions : List (OperationDecision ext)}
    {current : Option (StartCall ext)} {outcome : Option BackupImportOutcome}
    (hf : s.imports.find? key = some call)
    (hst : call.stage = .restarting decisions current outcome) (start : Option (StartCall ext)) :
    s.setStart start (some key) = s.setCall { call with
      stage := .restarting decisions start outcome
      restarts := call.restarts ++ (start.bind (·.operationId)).toList } := by
  unfold setStart
  simp only [hf, hst]

variable (h : s.Inv catalogue)

include h

/-- An import goes on with an operation that it starts. -/
theorem Inv.setStart (hstart : s.startOf (some key) = some start) (next : Option (StartCall ext)) :
    (s.setStart next (some key)).Inv catalogue := by
  obtain ⟨call, hm, hf, _, outcome, hst⟩ := startOf_some hstart
  rw [setStart_some hf hst]
  have hc := h.calls call hm
  refine h.setCall hm (ImportCall.IsActive.of_stage hst (by simp)) ⟨rfl, rfl, rfl,
    { sound := by simpa [hst, ImportStage.decisions] using hc.sound
      nodup := by simpa [hst, ImportStage.pending] using hc.nodup
      covered := fun hrel op ha hcommitted => ?_
      accounted := ?_
      unstarted := fun hn => absurd hst ((hc.unstarted hn).2 _ _ _)
      named := ?_ }⟩
  · have hcovers := hc.covered hrel op ha
    rw [hst] at hcovers
    exact List.mem_append_left _ (hcovers hcommitted)
  · have hacc := hc.accounted
    unfold ImportCall.Accounted at hacc ⊢
    rw [hst] at hacc
    cases outcome <;> exact hacc
  · rintro _ _ _ _ ⟨⟩
    simp

theorem inv_prepare {disposableFile : Bool} (hok : prepare who op disposableFile s = .ok u s') :
    s'.Inv catalogue := by
  simp only [ImportSystem.prepare, onOperations, get_bind] at hok
  cases hstart : s.startOf who with rw [hstart] at hok
  | none => cases hok
  | some start =>
    obtain ⟨req, _ | _⟩ := start
    · simp only [bind_ok_iff, zoom_eq_ok, modify_eq_ok] at hok
      obtain ⟨_, _, ⟨operations, hpre, rfl⟩, rfl⟩ := hok
      have hr := Supervisor.prepare_registry hpre
      have hs : Inv catalogue { s with operations } := h.operate (by
        rw [hr]
        exact Std.Refl.refl _)
      cases who with
      | none =>
        refine { hs with starting := ?_ }
        rintro _ ⟨⟩ selection hselection
        exact h.starting ⟨req, none⟩ hstart selection hselection
      | some _ => exact Inv.setStart hs hstart _
    · cases hok

theorem inv_endStart (hok : endStart who s = .ok u s') : s'.Inv catalogue := by
  simp only [endStart, get_bind] at hok
  cases hstart : s.startOf who with rw [hstart] at hok
  | none => cases hok
  | some _ =>
    obtain ⟨-, rfl⟩ := enabled_set_eq_ok.1 hok
    cases who with
    | none => exact { h with starting := fun _ hn => by cases hn }
    | some _ => exact h.setStart hstart none

theorem inv_insertRecord {readings : Readings ext}
    {bound : RuntimeOperationRequest ext} {now : ℕ}
    (hok : insertRecord catalogue who readings bound now s = .ok u s') : s'.Inv catalogue := by
  simp only [ImportSystem.insertRecord, onOperations, get_bind] at hok
  cases hstart : s.startOf who with rw [hstart] at hok
  | none => cases hok
  | some start =>
    obtain ⟨_, _ | op⟩ := start
    · cases hok
    · simp only [bind_ok_iff, enabled_eq_ok, zoom_eq_ok] at hok
      obtain ⟨_, _, ⟨⟨hmet, hdef⟩, rfl⟩, _, hi, rfl⟩ := hok
      have he := Supervisor.insertRecord_evolves hi
      refine { h with known := ?_, calls := fun call hm => ?_ }
      · intro r' hm
        obtain ⟨r, hr | rfl, hfrom⟩ := he r' hm
        · exact (h.known r hr).of_changed hfrom
        · exact Known.of_changed hfrom fun _ => ⟨bound, rfl, hdef, rfl⟩
      · refine (h.calls call hm).of_affected fun hheld other haffected => ?_
        obtain ⟨r', hmem', hid, hrun, used, hused, ha⟩ := haffected
        obtain ⟨r, hr | rfl, hfrom⟩ := he r' hmem'
        · have hb : r.operation.status.isTerminal = false := by
            rw [← Bool.not_eq_true]
            intro hover
            simp [(hfrom.stays hover).1] at hrun
          exact .inl ⟨r, hr, hfrom.operationId.symm.trans hid, hb, used,
            (hfrom.request hrun).symm.trans hused, ha⟩
        · -- The record is the new one.
          have hnew : other = op := hid.symm.trans hfrom.operationId
          obtain rfl : bound = used := Option.some.inj ((hfrom.request hrun).symm.trans hused)
          cases who with
          | none =>
            have hfree := h.starting _ hstart call.selection (h.gate call hm hheld)
            rw [← hmet, ha] at hfree
            cases hfree
          | some _ =>
            obtain ⟨call', hmem', -, _, _, hst⟩ := startOf_some hstart
            obtain rfl := h.single call hm hheld call' hmem'
              (h.released_eq_false hmem' (ImportCall.IsActive.of_stage hst (by simp)))
            have hname := (h.calls call hm).named _ _ _ _ hst
            rw [hst]
            exact .inr fun _ => hnew ▸ hname

end Starting

end ImportSystem

end LogosInspector.Operations
