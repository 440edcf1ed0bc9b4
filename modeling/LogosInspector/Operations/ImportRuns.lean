import LogosInspector.Operations.ImportStages

/-!
# Imports and operations exclude each other

Every action keeps the invariant, so that it holds of all states of the system: while the store
restores a backup no operation runs that the backup affects, and what a call has canceled it starts
again, each operation once, unless somebody has to look at what the call has left behind.
-/

namespace LogosInspector.Operations

open Mutation List Table
open ImportStage (pending isEarly isWaiting)

open SettingsBackup

variable {ext : OperationExternals} {catalogue : OperationCatalogue ext}

def ImportStage.isRestoring : ImportStage ext → Bool
  | .restoring => true
  | _ => false

def ImportStage.isApplied : ImportStage ext → Bool
  | .returned (some .applied) => true
  | _ => false

theorem ImportStage.eq_restoring {stage : ImportStage ext} (h : stage.isRestoring = true) :
    stage = .restoring := by
  unfold ImportStage.isRestoring at h
  split at h
  · rfl
  · cases h

theorem ImportStage.eq_returned {stage : ImportStage ext} (h : stage.isApplied = true) :
    stage = .returned (some .applied) := by
  unfold ImportStage.isApplied at h
  split at h
  · rfl
  · cases h

namespace ImportSystem

variable {s s' : ImportSystem ext} {u : Unit} {key : ℕ} {call : ImportCall ext}

/-! ### What the actions have in common -/

/-- An action of a call finds the call. -/
theorem exists_call {f : ImportCall ext → Mutation (ImportSystem ext) Unit}
    (hok : (callOf key >>= f) s = .ok u s') : ∃ call ∈ s.imports, f call s = .ok u s' := by
  simp only [callOf, get_bind, bind_ok_iff, ofExcept_eq_ok, required_eq_ok] at hok
  obtain ⟨call, _, ⟨hf, rfl⟩, hok⟩ := hok
  exact ⟨call, (find?_eq_some.1 hf).1, hok⟩

/-- A call of the registry that returns. -/
theorem inv_onRegistry {α : Type} {m : Mutation (RegistryState ext) α} {a : α} (h : s.Inv catalogue)
    (hkeep : KeepsAt (RegistryChanged fun _ => True) s.operations.registry m)
    (hok : onOperations (Supervisor.onRegistry m) s = .ok a s') :
    s'.Inv catalogue ∧ s'.imports = s.imports ∧
      m s.operations.registry = .ok a s'.operations.registry := by
  simp only [onOperations, Supervisor.onRegistry, zoom_eq_ok] at hok
  obtain ⟨_, ⟨_, hok, rfl⟩, rfl⟩ := hok
  exact ⟨h.operate (hkeep.of_ok hok), rfl, hok⟩

/-- A call of the registry that fails. -/
theorem inv_onRegistry_error {α : Type} {m : Mutation (RegistryState ext) α} {e : String}
    (h : s.Inv catalogue)
    (hkeep : KeepsAt (RegistryChanged fun _ => True) s.operations.registry m)
    (herr : onOperations (Supervisor.onRegistry m) s = .error e s') :
    s'.Inv catalogue ∧ s'.imports = s.imports := by
  simp only [onOperations, Supervisor.onRegistry, Mutation.zoom] at herr
  cases hm : m s.operations.registry with rw [hm] at herr
  | ok _ _ => cases herr
  | error _ _ =>
    cases herr
    exact ⟨h.operate (hkeep.of_error hm), rfl⟩

theorem keeps_look (readings : Readings ext) :
    KeepsAt (RegistryChanged fun _ => True) s.operations.registry (inspect readings) :=
  keeps_inspect (changed_upheld _) readings s.operations.registry

/-- A call is left for somebody to look at. -/
theorem inv_requireRecovery (h : s.Inv catalogue) (hm : call ∈ s.imports)
    (hac : call.IsActive) (hres : call.restarted = [])
    (hcover : call.committed = true → ∀ op,
      ¬ AffectedId catalogue s.operations.registry call.selection op)
    {transactionId : Option Text} (hok : requireRecovery call transactionId s = .ok u s') :
    s'.Inv catalogue := by
  obtain ⟨hu, rfl⟩ := guarded_set_eq_ok.1 hok
  have hstarting : s.starting = none := by simpa [unlocked] using hu
  have hc := h.calls call hm
  have hcovered' : ∀ op, AffectedId catalogue s.operations.registry call.selection
      op → call.committed = true → op ∈ call.restarts :=
    fun op ha hcommitted => absurd ha (hcover hcommitted op)
  have hfail : ∀ phase releaseOnDrop, (s.setCall { call.retainForRecovery with
      phase, releaseOnDrop, stage := .returning none }).Inv catalogue := fun _ _ =>
    h.setCall hm hac (hc.retain hres hcovered' (by simp))
  split_ifs with hphase
  · cases hgate : s.gate with
    | active selection _ closing =>
      have hs : Inv catalogue
          { s with gate := .recoveryRequired selection transactionId closing } :=
        h.setGate hstarting (by rw [hgate]; rfl) (by rw [hgate]; exact id)
      exact hs.setCall hm hac (hc.retain hres hcovered' (by simp))
    | idle | closing | recoveryRequired => exact hfail _ _
  · exact hfail _ _

/-! ### The actions of an import -/

variable {selection : BackupImportSelection}

theorem inv_acquire (h : s.Inv catalogue) {backupCatalogId : Text}
    (hok : acquire backupCatalogId selection s = .ok u s') :
    s'.Inv catalogue := by
  obtain ⟨hu, hok⟩ := guarded_eq_ok.1 hok
  have hs : s.starting = none := by simpa [unlocked] using hu
  cases hgate : s.gate with rw [hgate] at hok
  | active | closing | recoveryRequired => cases hok
  | idle =>
    rw [← set_eq_ok.1 hok]
    -- The gate is idle, so that no call holds it.
    have hquiet : ∀ other ∈ s.imports, ¬ other.released = false := by
      intro other hm hheld
      have := h.gate other hm hheld
      rw [hgate] at this
      cases this
    have hnew : (ImportCall.new s.nextKey backupCatalogId selection : ImportCall ext).Untouched :=
      ⟨rfl, rfl, rfl, rfl, rfl⟩
    refine h.insertCall (fun other hm _ => hquiet other hm) (Nat.le_succ _) (Nat.lt_succ_self _)
      (fun hrel => by cases hrel) (fun _ => rfl) (hnew.inv rfl)
      (fun _ hsome => by cases hs.symm.trans hsome) fun hreq => ?_
    have := h.closed hreq
    rw [hgate] at this
    cases this

theorem inv_allocateImportId (h : s.Inv catalogue) (hok : allocateImportId key s = .ok u s') :
    s'.Inv catalogue := by
  obtain ⟨call, hm, hok⟩ := exists_call hok
  cases hst : call.stage with rw [hst] at hok
  | allocating =>
    simp only [modify_eq_ok] at hok
    have hac := ImportCall.IsActive.of_stage hst (by simp)
    have hc := h.calls call hm
    have hu := hc.untouched_of_isEarly (by simp [hst, isEarly])
    rw [← hok]
    split_ifs
    · have hs : Inv catalogue { s with nextImportSequence := s.nextImportSequence + 1 } :=
        { h with }
      exact hs.setCall hm hac (hu.goesOn rfl)
    · exact h.setCall hm hac hc.fail
  | _ => cases hok

theorem inv_preview (h : s.Inv catalogue) {isObject : Option Bool}
    (hok : preview key isObject s = .ok u s') : s'.Inv catalogue := by
  obtain ⟨call, hm, hok⟩ := exists_call hok
  cases hst : call.stage with rw [hst] at hok
  | previewing =>
    simp only [modify_eq_ok] at hok
    have hac := ImportCall.IsActive.of_stage hst (by simp)
    have hc := h.calls call hm
    have hu := hc.untouched_of_isEarly (by simp [hst, isEarly])
    rw [← hok]
    refine h.setCall hm hac ?_
    cases isObject with
    | none => exact hc.transition (hu.goesOn rfl)
    | some _ => exact hu.goesOn rfl
  | _ => cases hok

variable {op : Text}

/-- The decisions of a call that is not blocked are about all operations that it affects. -/
theorem decisions_of_not_block {registry : RegistryState ext}
    (hblk : ¬ (operationDecisions catalogue registry.records selection).any
      (·.action = .block) = true)
    (ha : AffectedId catalogue registry selection op) :
    op ∈ ((operationDecisions catalogue registry.records selection).filter
      (·.action = .stop)).map (·.operationId) := by
  obtain ⟨r, hm, hid, ha⟩ := ha
  obtain ⟨decision, hdec⟩ := operationDecision_of_affected ha
  have hmem' := mem_operationDecisions.2 ⟨r, hm, ha.1, hdec⟩
  have hstop : decision.action = .stop := by
    simp only [any_eq_true, decide_eq_true_eq, not_exists, not_and] at hblk
    cases hact : decision.action with
    | stop => rfl
    | block => exact absurd hact (hblk decision hmem')
  exact mem_map.2 ⟨decision, mem_filter.2 ⟨hmem', by simp [hstop]⟩,
    (operationDecision_eq_some hdec).1.trans hid⟩

variable {readings : Readings ext} {timedOut : Bool} {gate : ImportGate}

section

variable (h : s.Inv catalogue)

include h

theorem inv_plan (hok : plan catalogue readings key s = .ok u s') : s'.Inv catalogue := by
  obtain ⟨call, hm, hok⟩ := exists_call hok
  cases hst : call.stage with rw [hst] at hok
  | planning isObject =>
    have hac := ImportCall.IsActive.of_stage hst (by simp)
    have hu :=
      (h.calls call hm).untouched_of_isEarly (by simp [hst, isEarly])
    have hback : ∀ t : ImportSystem ext, t.Inv catalogue → call ∈ t.imports →
        (t.setCall (call.transition .rolledBack (·.leave .rolledBack))).Inv catalogue :=
      fun t ht hm => ht.setCall hm hac ((ht.calls call hm).transition (hu.goesOn rfl))
    cases isObject with
    | false =>
      rw [← modify_eq_ok.1 hok]
      exact hback s h hm
    | true =>
      rcases handle_eq_ok.1 hok with ⟨_, t, hi, hok⟩ | ⟨_, t, hi, hok⟩
      · obtain ⟨ht, himports, hi⟩ := inv_onRegistry h (keeps_look readings) hi
        have hrec := inspect_records hi
        rw [← himports] at hm
        simp only [modify_eq_ok] at hok
        rw [← hok, ← hrec]
        refine ht.setCall hm hac ((ht.calls call hm).transition ?_)
        split_ifs with hblk
        · -- an operation that cannot be stopped
          unfold ImportCall.transition
          split_ifs <;> exact hu.goesOn rfl
        · refine hu.request (fun _ hm => ?_) ?_ fun _ ha =>
            decisions_of_not_block hblk ha
          · obtain ⟨hm, hstop⟩ := mem_filter.1 hm
            obtain ⟨r, hm, hrun, hdec⟩ := mem_operationDecisions.1 hm
            exact operationDecision_sound (ht.known r hm) hrun hdec (of_decide_eq_true hstop)
          · exact (nodup_operationDecisions _ _).sublist (filter_sublist.map _)
      · obtain ⟨ht, himports⟩ := inv_onRegistry_error h (keeps_look readings) hi
        rw [← modify_eq_ok.1 hok]
        exact hback t ht (himports ▸ hm)
  | _ => cases hok

theorem inv_requestStop (hok : requestStop readings key s = .ok u s') : s'.Inv catalogue := by
  obtain ⟨call, hm, hok⟩ := exists_call hok
  cases hst : call.stage with rw [hst] at hok
  | requesting decisions =>
    have hac := ImportCall.IsActive.of_stage hst (by simp)
    have hu :=
      (h.calls call hm).untouched_of_isEarly (by simp [hst, isEarly])
    -- The next stage has the decisions of this one, in the same order.
    have hnext : ∀ (t : ImportSystem ext) (stage : ImportStage ext), t.Inv catalogue →
        call ∈ t.imports → stage.pending = call.stage.pending → stage.decisions = stage.pending →
        (∀ op, op ∈ stage.pending.map (·.operationId) →
          stage.Covers call.committed call.restarts op) →
        ImportCall.Accounted { call with stage } →
        (∀ decisions start outcome, stage ≠ .restarting decisions (some start) outcome) →
        (t.setCall { call with stage }).Inv catalogue := by
      intro t _ ht hm hp hdecisions hcovers hacc hstart
      have hc := ht.calls call hm
      refine ht.setCall hm hac (hc.advance ?_ ?_ ?_ hacc hstart)
      · intro decision hdec
        rw [hdecisions, hp] at hdec
        rw [hst] at hdec ⊢
        exact hdec
      · rw [hp]
        exact hc.nodup
      · intro op ha
        have hcov := ht.covers hm hac ha
        rw [hst] at hcov hp
        exact hcovers op (by rwa [hp])
    cases decisions with
    | nil =>
      rw [← modify_eq_ok.1 hok]
      refine hnext s _ h hm (by simp [hst, pending]) rfl (fun _ => id) ?_ (by simp)
      exact ⟨hu.committed, hu.stopped.trans hu.canceled.symm, hu.restarted⟩
    | cons decision _ =>
      have hkeep : KeepsAt (RegistryChanged fun _ => True) s.operations.registry
          (Operations.transition readings decision.operationId .cancelRequested) :=
        keeps_transition (changed_upheld _) readings (.inr trivial) _
      rcases handle_eq_ok.1 hok with ⟨_, _, hcancel, hok⟩ | ⟨_, _, hcancel, hok⟩
      · obtain ⟨ht, hi, -⟩ := inv_onRegistry h hkeep hcancel
        rw [← modify_eq_ok.1 hok]
        refine hnext _ _ (ht.operate ?_) (hi ▸ hm) (by simp [hst, pending])
          rfl (fun _ => id) ?_ (by simp)
        · split_ifs <;> exact Std.Refl.refl _
        · exact ⟨hu.committed, hu.canceled, hu.stopped, hu.restarted⟩
      · obtain ⟨ht, hi⟩ := inv_onRegistry_error h hkeep hcancel
        refine inv_requireRecovery ht (hi ▸ hm) hac hu.restarted ?_ hok
        simp [hu.committed]
  | _ => cases hok

/-- A call looks whether an operation is over. -/
theorem inv_waitUntilTerminal (hm : call ∈ s.imports) (hac : call.IsActive) (hb : call.Balanced)
    {settled : OperationStatus → ImportCall ext}
    {late : Mutation (ImportSystem ext) Unit}
    (hset : ∀ (t : ImportSystem ext) (status : OperationStatus), t.Inv catalogue →
      call ∈ t.imports → ¬ AffectedId catalogue t.operations.registry call.selection op →
      call.Continues catalogue (AffectedId catalogue t.operations.registry call.selection)
        (settled status))
    (hlate : ∀ t, t.Inv catalogue → call ∈ t.imports → late t = .ok u s' → s'.Inv catalogue)
    (hok : waitUntilTerminal readings call op timedOut settled late s = .ok u s') :
    s'.Inv catalogue := by
  have hrecovery : ∀ t : ImportSystem ext, t.Inv catalogue → call ∈ t.imports →
      requireRecovery call (quiesceTransactionId call) t = .ok u s' → s'.Inv catalogue :=
    fun t ht hm hok => inv_requireRecovery ht hm hac hb.2.2 (by simp [hb.1]) hok
  rcases handle_eq_ok.1 hok with ⟨records, t, hi, hok⟩ | ⟨_, t, hi, hok⟩
  · obtain ⟨ht, himports, hi⟩ := inv_onRegistry h (keeps_look readings) hi
    have hrec := inspect_records hi
    rw [← himports] at hm
    cases hf : records.find? op with rw [hf] at hok
    | none => exact hrecovery t ht hm hok
    | some r =>
      dsimp only at hok
      split_ifs at hok with hover
      · rw [← modify_eq_ok.1 hok]
        refine ht.setCall hm hac (hset t _ ht hm ?_)
        rintro ⟨_, ho, hid, hrun, -⟩
        -- There is one record with this id.
        rw [hrec] at ho
        obtain ⟨hr, hkey⟩ := find?_eq_some.1 hf
        obtain rfl := eq_of_key_eq ho hr (hid.trans hkey.symm)
        simp [hover] at hrun
      · exact hlate t ht hm hok
      · rw [← (pure_ok_iff.1 hok).2]
        exact ht
  · obtain ⟨ht, himports⟩ := inv_onRegistry_error h (keeps_look readings) hi
    exact hrecovery t ht (himports ▸ hm) hok

theorem inv_poll (hok : poll readings key timedOut s = .ok u s') : s'.Inv catalogue := by
  obtain ⟨call, hm, hok⟩ := exists_call hok
  cases hst : call.stage with rw [hst] at hok
  | waiting requested awaiting =>
    have hac := ImportCall.IsActive.of_stage hst (by simp)
    have hb := (h.calls call hm).balanced (by simp [hst, isWaiting])
    cases requested with
    | nil =>
      cases awaiting with
      | nil =>
        -- All are over, so that no affected operation is left.
        rw [← modify_eq_ok.1 hok]
        have hc := h.calls call hm
        refine h.setCall hm hac (hc.transition ⟨rfl, rfl, rfl, ?_⟩)
        refine ⟨?_, ?_, ?_, hb.2, fun hn => ⟨(hc.unstarted hn).1, by simp⟩, by simp⟩
        · simpa [hst, ImportStage.decisions, pending] using hc.sound
        · simpa [hst, pending] using hc.nodup
        · intro _ op ha
          simpa [hst, ImportStage.Covers, pending] using h.covers hm hac ha
      | cons _ _ =>
        rw [← modify_eq_ok.1 hok]
        have hc := h.calls call hm
        refine h.setCall hm hac (hc.advance ?_ ?_ (fun _ _ => trivial)
          (ImportCall.Balanced.accounted hb rfl) (by simp))
        · simp [hst, ImportStage.decisions, pending]
        · simpa [hst, pending] using hc.nodup
    | cons req rest =>
      obtain ⟨decision, canceled⟩ := req
      refine inv_waitUntilTerminal h hm hac hb (fun t status ht hm hover => ?_)
        (fun t ht hm hok => ?_) hok
      · have hc := ht.calls call hm
        refine hc.settle hb (by simp [hst, pending])
          (by simp [hst, ImportStage.decisions]) rfl (fun op ha => ?_)
          (fun call' hstage' hb' =>
            hb'.accounted (by simp [hstage', isWaiting])) (by simp)
        have hcovers := ht.covers hm hac ha
        rw [hst] at hcovers
        simp only [ImportStage.Covers, pending, map_cons, cons_append, mem_cons] at hcovers ⊢
        exact hcovers.resolve_left fun hid => hover (hid ▸ ha)
      · rw [← modify_eq_ok.1 hok]
        have hc := ht.calls call hm
        have hperm : (call.canceled ++ call.stage.pending).Perm (call.canceled ++
            (ImportStage.waiting rest (awaiting ++ [(decision, canceled)])).pending) := by
          rw [hst]
          refine List.Perm.append_left _ ?_
          simp only [pending, map_cons, map_append, map_nil, ← append_assoc]
          exact perm_append_singleton _ _ |>.symm
        have hmem' : ∀ other, other ∈ (ImportStage.waiting rest
            (awaiting ++ [(decision, canceled)])).pending ↔ other ∈ call.stage.pending := by
          intro other
          simp only [hst, pending, map_cons, map_append, map_nil,
            mem_append, mem_cons, not_mem_nil, or_false]
          tauto
        refine ht.setCall hm hac (hc.advance ?_ ((hperm.map _).nodup_iff.1 hc.nodup) ?_
          (ImportCall.Balanced.accounted hb rfl) (by simp))
        · intro other ho
          have := (hmem' other).1 ho
          rw [hst] at this ⊢
          exact this
        · intro _ ha
          have hcovers := ht.covers hm hac ha
          rw [hst] at hcovers hmem'
          obtain ⟨other, ho, hid⟩ := mem_map.1 hcovers
          exact mem_map.2 ⟨other, (hmem' other).2 ho, hid⟩
  | reconciling awaiting =>
    have hac := ImportCall.IsActive.of_stage hst (by simp)
    have hb := (h.calls call hm).balanced (by simp [hst, isWaiting])
    cases awaiting with
    | nil =>
      rw [← modify_eq_ok.1 hok]
      have hc := h.calls call hm
      refine h.setCall hm hac (hc.transition (hc.compensate (by simp) hb.2.1 hb.2.2 ?_))
      simp [hb.1]
    | cons req _ =>
      obtain ⟨_, _⟩ := req
      refine inv_waitUntilTerminal h hm hac hb (fun t _ ht hm _ => ?_)
        (fun _ ht hm hok => ?_) hok
      · exact (ht.calls call hm).settle hb (by simp [hst, pending])
          (by simp [hst, ImportStage.decisions]) rfl (fun _ _ => trivial)
          (fun _ hstage' hb' =>
            hb'.accounted (by simp [hstage', isWaiting])) (by simp)
      · exact inv_requireRecovery ht hm hac hb.2.2 (by simp [hb.1]) hok
  | _ => cases hok

theorem inv_restore {result : RestoreResult}
    (hok : restore key result s = .ok u s') : s'.Inv catalogue := by
  obtain ⟨call, hm, hok⟩ := exists_call hok
  cases hst : call.stage with rw [hst] at hok
  | restoring =>
    have hac := ImportCall.IsActive.of_stage hst (by simp)
    have hc := h.calls call hm
    have hacc := hc.accounted
    unfold ImportCall.Accounted at hacc
    rw [hst] at hacc
    have hcovers : ∀ op, ¬ AffectedId catalogue s.operations.registry call.selection op := by
      intro op ha
      have := h.covers hm hac ha
      rwa [hst] at this
    have hcompensate : ∀ phase outcome, outcome ≠ BackupImportOutcome.recoveryRequired →
        (s.setCall (call.transition phase (·.compensate outcome))).Inv catalogue :=
      fun _ _ hout => h.setCall hm hac (hc.transition (hc.compensate hout hacc.1 hacc.2
          fun op ha => absurd ha (hcovers op)))
    have hrec : ∀ transactionId, requireRecovery call transactionId s = .ok u s' →
        s'.Inv catalogue := fun _ hok =>
      inv_requireRecovery h hm hac hacc.2 (fun _ => hcovers) hok
    match result, hok with
    | .receipt backupCatalogId selection, hok =>
      dsimp only at hok
      split_ifs at hok
      · rw [← modify_eq_ok.1 hok]
        exact hcompensate _ _ (by simp)
      · exact hrec _ hok
    | .failure none, hok | .failure (some (.rolledBack, _)), hok =>
      rw [← modify_eq_ok.1 hok]
      exact hcompensate _ _ (by simp)
    | .failure (some (.recoveryRequired, _)), hok => exact hrec _ hok
  | _ => cases hok

theorem inv_restart (hok : restart key s = .ok u s') : s'.Inv catalogue := by
  obtain ⟨call, hm, hok⟩ := exists_call hok
  cases hst : call.stage with rw [hst] at hok
  | restarting decisions start outcome =>
    have hac := ImportCall.IsActive.of_stage hst (by simp)
    have hc := h.calls call hm
    have hacc := hc.accounted
    unfold ImportCall.Accounted at hacc
    rw [hst] at hacc
    have hcovers : ∀ op, AffectedId catalogue s.operations.registry call.selection
        op → call.committed = true → op ∈ call.restarts := by
      intro _ ha
      have := h.covers hm hac ha
      rwa [hst] at this
    match decisions, start, hok with
    | decision :: decisions, none, hok =>
      rw [← modify_eq_ok.1 hok]
      obtain ⟨-, _, hreq, -, -⟩ := hc.sound decision (by
        simp [hst, ImportStage.decisions])
      simp only [hreq, Option.map_some, Option.toList_some]
      refine h.setCall hm hac ⟨rfl, rfl, rfl, ?_, ?_, fun _ => hcovers, ?_, ?_, by simp⟩
      · intro other ho
        refine hc.sound other ?_
        simp only [hst, ImportStage.decisions, mem_append, mem_cons, not_mem_nil, or_false] at ho ⊢
        tauto
      · simpa [hst, pending] using hc.nodup
      · cases outcome with
        | none => trivial
        | some _ => exact ⟨hacc.1, hacc.2.1, by simp [hacc.2.2]⟩
      · simp
    | [], none, hok =>
      rw [← modify_eq_ok.1 hok]
      refine h.setCall hm hac ⟨rfl, rfl, rfl, ?_, ?_, fun _ => hcovers, ?_,
        fun hn => ⟨(hc.unstarted hn).1, by simp⟩, by simp⟩
      · simpa [hst, ImportStage.decisions, pending] using hc.sound
      · simpa [hst, pending] using hc.nodup
      · cases outcome with
        | none => trivial
        | some _ =>
          refine ⟨hacc.2.1, ?_⟩
          rw [if_neg hacc.1]
          simpa using hacc.2.2
    | decisions, some start, hok => cases decisions <;> cases hok
  | _ => cases hok

theorem inv_unwind (hok : unwind key s = .ok u s') : s'.Inv catalogue := by
  obtain ⟨call, hm, hok⟩ := exists_call hok
  have hc := h.calls call hm
  cases hst : call.stage with rw [hst] at hok
  | returning | returned => cases hok
  | restarting _ start =>
    cases start with
    | some => cases hok
    | none =>
      rw [← modify_eq_ok.1 hok]
      have hac := ImportCall.IsActive.of_stage hst (by simp)
      exact h.setCall hm hac hc.fail
  | _ =>
    rw [← modify_eq_ok.1 hok]
    have hac := ImportCall.IsActive.of_stage hst (by simp)
    exact h.setCall hm hac hc.fail

omit h in
theorem isClosing_releasedGate (h : gate.isClosing = true) :
    (releasedGate call gate).isClosing = true := by
  cases gate with
  | active _ _ closing =>
    have hc : closing = true := h
    unfold releasedGate
    split_ifs
    · cases call.failClosedTransactionId <;> simp [ImportGate.isClosing, hc]
    · exact h
  | idle | closing | recoveryRequired => exact h

omit h in
theorem selection_releasedGate (h : (releasedGate call gate).selection = some selection) :
    gate.selection = some selection := by
  cases gate with
  | active _ _ closing =>
    unfold releasedGate at h
    dsimp only at h
    by_cases hrel : call.releaseOnDrop = true
    · rw [if_pos hrel] at h
      cases htx : call.failClosedTransactionId with rw [htx] at h
      | some _ => exact h
      | none => cases closing <;> cases h
    · rwa [if_neg hrel] at h
  | idle | closing | recoveryRequired => exact h

/-- A call gives up its claim on the gate, which may be kept from others all the same. -/
theorem Inv.release (hm : call ∈ s.imports) (hac : call.IsActive)
    (hu : s.unlocked = true) {outcome : Option BackupImportOutcome}
    (hc : ImportCall.Inv catalogue (AffectedId catalogue s.operations.registry call.selection)
      { call with
        stage := .returned outcome
        released := (releasedGate call s.gate).selection.isNone }) :
    ({ s with gate := releasedGate call s.gate }.setCall
      { call with
        stage := .returned outcome
        released := (releasedGate call s.gate).selection.isNone }).Inv catalogue := by
  have hstarting : s.starting = none := by simpa [unlocked] using hu
  have hquiet := h.quiet hm hac
  refine h.insertCall hquiet le_rfl (h.fresh call hm) (fun _ => ⟨outcome, rfl⟩)
    (fun hheld => ?_) hc (fun _ hsome => by cases hstarting.symm.trans hsome)
    fun hreq => isClosing_releasedGate (h.closed hreq)
  -- The gate is kept, and so it has the selection that it had.
  have hkept : (releasedGate call s.gate).selection ≠ none := by
    intro hn
    simp [hn] at hheld
  obtain ⟨_, hs⟩ := Option.ne_none_iff_exists'.1 hkept
  have hb := selection_releasedGate hs
  exact hs.trans (hb.symm.trans (h.gate call hm (h.released_eq_false hm hac)))

theorem inv_drop (hok : drop key s = .ok u s') : s'.Inv catalogue := by
  obtain ⟨call, hm, hok⟩ := exists_call hok
  cases hst : call.stage with rw [hst] at hok
  | returning outcome =>
    have hac := ImportCall.IsActive.of_stage hst (by simp)
    have hc := h.calls call hm
    have hacc := hc.accounted
    unfold ImportCall.Accounted at hacc
    rw [hst] at hacc
    split_ifs at hok with hres
    · rw [← modify_eq_ok.1 hok]
      -- Only a call that has failed has kept operations to be started again.
      obtain rfl : outcome = none := by
        cases outcome with
        | none => rfl
        | some _ => exact absurd hacc.1 hres.2
      refine h.setCall hm hac ⟨rfl, rfl, rfl, ?_, ?_, ?_, trivial,
        fun hn => ⟨(hc.unstarted hn).1, by simp⟩, by simp⟩
      · intro other ho
        refine hc.sound other ?_
        simp only [ImportStage.decisions, mem_append, not_mem_nil, or_false] at ho ⊢
        tauto
      · simpa [hst, pending] using hc.nodup
      · intro _ op ha
        have hcovers := h.covers hm hac ha
        rwa [hst] at hcovers
    · simp only [bind_ok_iff, get_eq_ok, enabled_eq_ok, modify_eq_ok] at hok
      obtain ⟨_, _, ⟨rfl, rfl⟩, _, _, ⟨hu, rfl⟩, rfl⟩ := hok
      have hcall' : ImportCall.Inv catalogue
          (AffectedId catalogue s.operations.registry call.selection)
          { call with
            stage := .returned outcome
            released := (releasedGate call s.gate).selection.isNone } := by
        refine ⟨?_, ?_, ?_, ?_, fun hn => ⟨(hc.unstarted hn).1, by simp⟩, by simp⟩
        · simpa [hst, ImportStage.decisions, pending] using hc.sound
        · simpa [hst, pending] using hc.nodup
        · intro _ _ ha
          have hcovers := h.covers hm hac ha
          rwa [hst] at hcovers
        · cases outcome <;> exact hacc
      exact h.release hm hac hu hcall'
  | _ => cases hok

theorem inv_beginClose (hok : beginClose s = .ok u s') : s'.Inv catalogue := by
  obtain ⟨hu, rfl⟩ := guarded_set_eq_ok.1 hok
  have hs : s.starting = none := by simpa [unlocked] using hu
  have hc : s.gate.beginClose.isClosing = true := by cases s.gate <;> rfl
  have hgate : Inv catalogue { s with gate := s.gate.beginClose } :=
    h.setGate hs (by cases s.gate <;> rfl) fun _ => hc
  exact { hgate with closed := fun _ => hc }

/-! ### Runs -/

omit h in
theorem inv_initial : (initial ext).Inv catalogue where
  known r hm := absurd hm not_mem_empty
  fresh call hm := absurd hm not_mem_empty
  left call hm := absurd hm not_mem_empty
  single call hm := absurd hm not_mem_empty
  gate call hm := absurd hm not_mem_empty
  calls call hm := absurd hm not_mem_empty
  starting start hsome := by cases hsome
  closed hreq := by cases hreq

/-- **An action keeps the invariant.** -/
theorem inv_action (action : Action ext)
    (hok : action.perform catalogue s = .ok u s') : s'.Inv catalogue := by
  cases action with
  | operate => exact inv_operate h hok
  | operationPermit => exact inv_operationPermit h hok
  | prepare => exact inv_prepare h hok
  | insertRecord => exact inv_insertRecord h hok
  | endStart => exact inv_endStart h hok
  | acquire => exact inv_acquire h hok
  | allocateImportId => exact inv_allocateImportId h hok
  | preview => exact inv_preview h hok
  | plan => exact inv_plan h hok
  | requestStop => exact inv_requestStop h hok
  | poll => exact inv_poll h hok
  | restore => exact inv_restore h hok
  | restart => exact inv_restart h hok
  | unwind => exact inv_unwind h hok
  | drop => exact inv_drop h hok
  | beginClose => exact inv_beginClose h hok

omit h in
theorem Reachable.inv (h : Reachable catalogue s) : s.Inv catalogue := by
  induction h with
  | initial => exact inv_initial
  | step action _ hstep ih => exact inv_action ih action hstep

/-- No operation that a selection affects is running or being started, but for some. -/
structure QuietBut (catalogue : OperationCatalogue ext) (s : ImportSystem ext)
    (selection : BackupImportSelection) (allowed : List Text) : Prop where
  running : ∀ record ∈ s.operations.registry.records, record.operation.status.isTerminal = false →
    ∃ request, record.restartRequest = some request ∧
      (selectionAffects selection (catalogue.requestMethod request) = true →
        record.operation.operationId ∈ allowed)
  starting : ∀ start, s.starting = some start →
    selectionAffects selection (catalogue.requestMethod start.request) = false

variable (hm : call ∈ s.imports)

include hm

theorem Inv.quietBut (hheld : call.released = false) {allowed : List Text}
    (hall : ∀ op, AffectedId catalogue s.operations.registry call.selection
      op → op ∈ allowed) : s.QuietBut catalogue call.selection allowed where
  running r hr hrun := by
    obtain ⟨req, hreq, -⟩ := h.known r hr hrun
    exact ⟨req, hreq, fun ha =>
      hall _ ⟨r, hr, rfl, hrun, req, hreq, ha⟩⟩
  starting start hstart := h.starting start hstart _ (h.gate call hm hheld)

/-- Once the store was called, an operation that is affected is one that the call starts again. -/
theorem Inv.allowed (hheld : call.released = false)
    (hcommitted : call.committed = true)
    (ha : AffectedId catalogue s.operations.registry call.selection op) :
    op ∈ call.restarts := by
  have hc := h.calls call hm
  have hcovers := hc.covered hheld op ha
  have hacc := hc.accounted
  unfold ImportCall.Accounted at hacc
  cases hst : call.stage with
  | restarting | returning | returned =>
    rw [hst] at hcovers
    exact hcovers hcommitted
  | restoring =>
    rw [hst] at hcovers
    exact hcovers.elim
  | _ =>
    rw [hst] at hacc
    cases hacc.1.symm.trans hcommitted

/-- No operation of the source can both be canceled and be started again. -/
theorem Inv.canceled_eq_nil (hdef : catalogue.definition = operationDefinition) :
    call.canceled = [] ∧ call.restarts = [] := by
  have hc := h.calls call hm
  have hn : ∀ decision ∈ call.canceled ++ call.stopped ++ call.restarted ++ call.stage.decisions,
      False := by
    intro decision hdec
    obtain ⟨-, _, -, hcancellable, hsafe⟩ := hc.sound decision hdec
    simp only [OperationCatalogue.requestDefinition, hdef] at hcancellable hsafe
    simp [not_cancellable_of_safeToRestart _ hsafe] at hcancellable
  refine ⟨eq_nil_iff_forall_not_mem.2 fun decision hdec => hn decision ?_,
    (hc.unstarted (eq_nil_iff_forall_not_mem.2 fun decision hdec =>
      hn decision ?_)).1⟩ <;> simp [hdec]

end

/-- **An import runs on a quiet system.** In every state that the coordinator can be in:

* when the store is called, no operation is running or being started that the import affects;
* and none is until the gate is released, but for those that the import itself starts again;
* at most one import has the gate;
* an import that has returned has started again each operation that it has canceled, and each once,
  or none at all if recovery is required;
* after `begin_close` no import starts.

With the operations of the source an import cancels none, and so there is none to be started
again. -/
theorem import_runs_quietly (h : Reachable catalogue s) :
    (∀ call ∈ s.imports, call.stage = .restoring → s.QuietBut catalogue call.selection []) ∧
      (∀ call ∈ s.imports, call.committed = true → call.released = false →
        s.QuietBut catalogue call.selection call.restarts) ∧
      (∀ call ∈ s.imports, call.released = false → ∀ call' ∈ s.imports, call'.released = false →
        call = call') ∧
      (∀ call ∈ s.imports, ∀ outcome, call.stage = .returned (some outcome) →
        (call.canceled.map (·.operationId)).Nodup ∧
          call.restarted = if outcome = .recoveryRequired then [] else call.canceled) ∧
      (s.closeRequested = true → ∀ backupCatalogId selection s',
        acquire backupCatalogId selection s ≠ .ok () s') ∧
      (catalogue.definition = operationDefinition → ∀ call ∈ s.imports,
        call.canceled = [] ∧ call.restarts = []) := by
  have hinv := h.inv
  refine ⟨fun call hmem hstage => ?_, fun call hmem hcommitted hheld => ?_, hinv.single,
    fun call hmem _ hstage => ?_, fun hclosed _ _ _ hok => ?_,
    fun hdefinition call hmem => hinv.canceled_eq_nil hmem hdefinition⟩
  · have hactive := ImportCall.IsActive.of_stage hstage (by simp)
    refine hinv.quietBut hmem (hinv.released_eq_false hmem hactive) fun operationId haffected => ?_
    have hcovers := hinv.covers hmem hactive haffected
    rw [hstage] at hcovers
    exact hcovers.elim
  · exact hinv.quietBut hmem hheld fun _ => hinv.allowed hmem hheld hcommitted
  · have hcall := hinv.calls call hmem
    have haccounted := hcall.accounted
    unfold ImportCall.Accounted at haccounted
    rw [hstage] at haccounted
    refine ⟨hcall.nodup.sublist (List.Sublist.map _ ?_), haccounted.2⟩
    exact sublist_append_left _ _
  · have hclosing := hinv.closed hclosed
    obtain ⟨-, hok⟩ := Mutation.guarded_eq_ok.1 hok
    cases hgate : s.gate with
    | idle =>
      rw [hgate] at hclosing
      cases hclosing
    | active | closing | recoveryRequired =>
      rw [hgate] at hok
      cases hok

/-! ### A run -/

/-- Do one thing after another. -/
def performs (catalogue : OperationCatalogue ext) (actions : List (Action ext)) :
    Mutation (ImportSystem ext) Unit :=
  actions.forM (·.perform catalogue)

theorem Reachable.performs {actions : List (Action ext)} (h : Reachable catalogue s)
    (hok : ImportSystem.performs catalogue actions s = .ok u s') : Reachable catalogue s' := by
  induction actions generalizing s with
  | nil =>
    obtain ⟨-, rfl⟩ := pure_ok_iff.1 hok
    exact h
  | cons action _ ih =>
    obtain ⟨_, _, hact, hrest⟩ := bind_ok_iff.1 hok
    exact ih (h.step action hact) hrest

/-- Everything is a read that can be canceled. -/
def sampleCatalogue : OperationCatalogue sampleExternals where
  method := fun _ => .blockchainBlocks
  definition := fun _ => ⟨.readPoll, true⟩

def sampleSelection : BackupImportSelection := ⟨.replace, .merge, .skip, .skip⟩

def pollRequest : RuntimeOperationRequest sampleExternals :=
  ⟨none, "blockchain".toList, "blockchainBlocks".toList, true, none, none, ()⟩

/-- A client, or an import, starts an operation. -/
def startPoll (who : Option ℕ) (operationId : Text) : List (Action sampleExternals) :=
  [.prepare who operationId false, .insertRecord who sampleReadings pollRequest 1000,
    .operate (.startRecord sampleReadings operationId), .operate (.admitOperation operationId),
    .operate (.synchronizeAdmittedControl sampleReadings operationId),
    .operate (.send operationId), .endStart who]

/-- A poll is running when an import comes, which cancels it and waits, … -/
def quiesce : List (Action sampleExternals) :=
  [.operationPermit pollRequest] ++ startPoll none "poll".toList ++
    [.operate .launchCommand, .acquire "backup".toList sampleSelection, .allocateImportId 0,
      .preview 0 (some true), .plan sampleReadings 0, .requestStop sampleReadings 0,
      .requestStop sampleReadings 0,
      .operate (.cancel "poll".toList), .operate (.exitTask 0 (.ok (.execution "poll".toList
        (.interrupted ⟨.cancelRequested, .confirmed, "canceled".toList⟩)))),
      .operate (.joinTask 0)] ++
    List.replicate 3 (.operate (.reduce sampleReadings none)) ++
    [.poll sampleReadings 0 false, .poll sampleReadings 0 false]

/-- … and starts it again when the backup is restored. Then the coordinator closes. -/
def resume : List (Action sampleExternals) :=
  [.restore 0 (.receipt "backup".toList sampleSelection), .restart 0] ++
    startPoll (some 0) "again".toList ++ [.restart 0, .drop 0, .beginClose]

/-- Whether the first import has a property. -/
def firstImport (p : ImportCall ext → Bool) (s : ImportSystem ext) : Bool :=
  (s.imports.find? 0).any p

theorem firstImport_eq_true {p : ImportCall ext → Bool} (h : s.firstImport p = true) :
    ∃ call ∈ s.imports, p call = true := by
  obtain ⟨call, hf, hp⟩ := (Option.any_eq_true _ _).1 h
  exact ⟨call, (find?_eq_some.1 hf).1, hp⟩

/-- The import runs while the poll is over, and starts it again once. -/
theorem import_runs_quietly_poll :
    ∃ restoring closed : ImportSystem sampleExternals, Reachable sampleCatalogue restoring ∧
      Reachable sampleCatalogue closed ∧
      (∃ call ∈ restoring.imports, call.stage = .restoring ∧
        restoring.QuietBut sampleCatalogue call.selection []) ∧
      (∃ call ∈ closed.imports, call.stage = .returned (some .applied) ∧
        call.canceled.map (·.operationId) = ["poll".toList] ∧ call.restarted = call.canceled ∧
        call.restarts = ["again".toList]) ∧
      closed.closeRequested = true ∧
      ∀ s', acquire "backup".toList sampleSelection closed ≠ .ok () s' := by
  obtain ⟨restoring, hrestoring, hstage⟩ := Mutation.exists_of_succeedsWith
    (m := performs sampleCatalogue quiesce) (s := initial sampleExternals)
    (p := firstImport (·.stage.isRestoring)) (by decide +kernel)
  obtain ⟨closed, hclosed, hreturned⟩ := Mutation.exists_of_succeedsWith
    (m := performs sampleCatalogue (quiesce ++ resume)) (s := initial sampleExternals)
    (p := fun s => s.closeRequested && s.firstImport fun call => call.stage.isApplied &&
      decide (call.canceled.map (·.operationId) = ["poll".toList] ∧
        call.restarts = ["again".toList])) (by decide +kernel)
  have hrestoring := Reachable.initial.performs hrestoring
  have hclosed := Reachable.initial.performs hclosed
  simp only [Bool.and_eq_true] at hreturned
  obtain ⟨hrequested, hreturned⟩ := hreturned
  obtain ⟨call, hmem, hcall⟩ := firstImport_eq_true hstage
  obtain ⟨call', hmem', hcall'⟩ := firstImport_eq_true hreturned
  simp only [Bool.and_eq_true, decide_eq_true_eq] at hcall'
  have hstage := ImportStage.eq_restoring hcall
  have happlied := ImportStage.eq_returned hcall'.1
  obtain ⟨hquiet, -⟩ := import_runs_quietly hrestoring
  obtain ⟨-, -, -, hrestarted, hno, -⟩ := import_runs_quietly hclosed
  refine ⟨restoring, closed, hrestoring, hclosed, ⟨call, hmem, hstage, hquiet call hmem hstage⟩,
    ⟨call', hmem', happlied, hcall'.2.1, ?_, hcall'.2.2⟩, hrequested, hno hrequested _ _⟩
  exact (hrestarted call' hmem' _ happlied).2

end ImportSystem

end LogosInspector.Operations
