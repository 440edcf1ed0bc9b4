import LogosInspector.Operations.Quiescence

/-!
# The stages of an import

A call of `apply` takes a list of the operations that it affects, and works it off: they are
canceled, waited for, waited for once more, and those that the call has canceled itself are started
again. Each stage keeps the invariant of the call, and so the whole system keeps its own.
-/

namespace LogosInspector.Operations

open SettingsBackup List

variable {ext : OperationExternals} {catalogue : OperationCatalogue ext}

/-! ### The decisions -/

section Decisions

variable {r : RuntimeOperationRecord ext} {selection : BackupImportSelection}
  {decision : OperationDecision ext}

theorem operationDecision_eq_some (h : operationDecision catalogue r selection = some decision) :
    decision.operationId = r.operation.operationId ∧
      decision.request = r.restartRequest ∧ ∃ req, r.restartRequest = some req ∧
        (decision.action = .stop → r.operation.cancellable = true ∧
          (catalogue.requestDefinition req).safeToRestart = true ∧
          decision.restartEligible = true) := by
  unfold operationDecision at h
  cases hreq : r.restartRequest with
  | none =>
    rw [hreq] at h
    cases h
  | some req =>
    simp only [hreq, Option.bind_eq_bind, Option.bind_some] at h
    split_ifs at h with ha hc
    all_goals obtain rfl := Option.some.inj h
    · simp only [Bool.and_eq_true] at hc
      exact ⟨rfl, rfl, req, rfl, fun _ => by simp [hc]⟩
    · exact ⟨rfl, rfl, req, rfl, fun hstop => by cases hstop⟩

/-- A decision to stop an operation is sound. -/
theorem operationDecision_sound (hknown : ImportSystem.Known catalogue r)
    (hrun : r.operation.status.isTerminal = false)
    (h : operationDecision catalogue r selection = some decision)
    (hstop : decision.action = .stop) : decision.Sound catalogue := by
  obtain ⟨-, hreq, req, hsome, hcand⟩ := operationDecision_eq_some h
  obtain ⟨hcancellable, hsafe, he⟩ := hcand hstop
  obtain ⟨_, hused, hdef, hr⟩ := hknown hrun
  obtain rfl := Option.some.inj (hsome.symm.trans hused)
  exact ⟨he, req, hreq.trans hsome, hdef.symm.trans (hr.symm.trans hcancellable), hsafe⟩

/-- For each affected operation there is a decision. -/
theorem operationDecision_of_affected (h : ImportSystem.Affected catalogue selection r) :
    ∃ decision, operationDecision catalogue r selection = some decision := by
  obtain ⟨-, _, hreq, ha⟩ := h
  simp [operationDecision, hreq, ha]

theorem mem_operationDecisions {records : Records ext} :
    decision ∈ operationDecisions catalogue records selection ↔
      ∃ r ∈ records, r.operation.status.isTerminal = false ∧
        operationDecision catalogue r selection = some decision := by
  simp [operationDecisions, Table.mem_records, and_assoc]

/-- What is kept of a list has its keys in the order of the list. -/
theorem map_filterMap_sublist {α β κ : Type} {f : α → Option β} {key : α → κ} {key' : β → κ}
    (h : ∀ a b, f a = some b → key' b = key a) (l : List α) :
    ((l.filterMap f).map key').Sublist (l.map key) := by
  induction l with
  | nil => exact .slnil
  | cons a l ih =>
    cases hf : f a with
    | none =>
      rw [filterMap_cons_none hf]
      exact ih.trans (sublist_cons_self _ _)
    | some b =>
      rw [filterMap_cons_some hf, map_cons, map_cons, h a b hf]
      exact ih.cons_cons _

theorem nodup_operationDecisions (records : Records ext) (selection : BackupImportSelection) :
    ((operationDecisions catalogue records selection).map (·.operationId)).Nodup := by
  refine (Table.nodup_keys records).sublist ?_
  refine (map_filterMap_sublist (fun _ _ h => (operationDecision_eq_some h).1) _).trans ?_
  exact filter_sublist.map _

end Decisions

/-! ### The stages of one call -/

section Stages

variable {affected : Text → Prop} {call : ImportCall ext}

variable {phase : BackupImportPhase}

/-- The operations that are affected are to be canceled. -/
theorem ImportCall.Untouched.request (h : call.Untouched) {decisions : List (OperationDecision ext)}
    (hsound : ∀ decision ∈ decisions, decision.Sound catalogue)
    (hnodup : (decisions.map (·.operationId)).Nodup)
    (hc : ∀ op, affected op → op ∈ decisions.map (·.operationId)) :
    call.Continues catalogue affected { call with phase, stage := .requesting decisions [] } where
  key := rfl
  selection := rfl
  released := rfl
  inv :=
    { sound := by
        simpa [ImportStage.decisions, ImportStage.pending, h.canceled, h.stopped, h.restarted]
          using hsound
      nodup := by simpa [ImportStage.pending, h.canceled] using hnodup
      covered := fun _ op ha => by
        simpa only [ImportStage.Covers, ImportStage.pending, map_nil, nil_append]
          using hc op ha
      accounted := ⟨h.committed, h.canceled, h.stopped, h.restarted⟩
      unstarted := fun _ => ⟨h.restarts, by simp⟩
      named := by simp }

variable (h : call.Inv catalogue affected)

include h

/-- A call has the same decisions at its next stage. -/
theorem ImportCall.Inv.advance {stage : ImportStage ext}
    (hdec : ∀ decision ∈ stage.decisions, decision ∈ call.stage.decisions)
    (hnodup : ((call.canceled ++ stage.pending).map (·.operationId)).Nodup)
    (hc : ∀ op, affected op → stage.Covers call.committed call.restarts op)
    (hacc : ImportCall.Accounted { call with stage })
    (hstart : ∀ decisions start outcome, stage ≠ .restarting decisions (some start) outcome) :
    call.Continues catalogue affected { call with stage } where
  key := rfl
  selection := rfl
  released := rfl
  inv :=
    { sound := by
        intro decision hm
        refine h.sound decision ?_
        simp only [mem_append] at hm ⊢
        exact hm.imp_right (hdec decision)
      nodup := hnodup
      covered := fun _ => hc
      accounted := hacc
      unstarted := fun hn => ⟨(h.unstarted hn).1, hstart⟩
      named := fun _ _ _ _ hst => absurd hst (hstart _ _ _) }

/-- While a call waits, what it has canceled is what it has to start again. -/
def ImportCall.Balanced (call : ImportCall ext) : Prop :=
  call.committed = false ∧ call.stopped = call.canceled ∧ call.restarted = []

/-- **An operation that is waited for is over**, and leaves the list. -/
theorem ImportCall.Inv.settle {decision : OperationDecision ext}
    {requested : Bool} {status : OperationStatus} {stage : ImportStage ext}
    (hb : call.Balanced)
    (hp : call.stage.pending.Perm (decision :: stage.pending))
    (hdecisions : call.stage.decisions = call.stage.pending)
    (hdecisions' : stage.decisions = stage.pending)
    (hc : ∀ op, affected op → stage.Covers call.committed call.restarts op)
    (hacc : ∀ call' : ImportCall ext, call'.stage = stage → call'.Balanced → call'.Accounted)
    (hstart : ∀ decisions start outcome, stage ≠ .restarting decisions start outcome) :
    call.Continues catalogue affected
      { call.recordTerminal decision requested status with stage } := by
  obtain ⟨hcommitted, hstop, hres⟩ := hb
  have hdec : decision.Sound catalogue := h.sound decision (by
    simp [hdecisions, hp.mem_iff])
  have hs : ∀ other ∈ stage.decisions, other.Sound catalogue := fun other hm =>
    h.sound other (by
      simp only [mem_append]
      rw [hdecisions, hp.mem_iff]
      exact .inr (mem_cons_of_mem _ (hdecisions' ▸ hm)))
  have hs' : ∀ other ∈ call.canceled ++ call.stopped ++ call.restarted,
      other.Sound catalogue := fun other hm => h.sound other (mem_append_left _ hm)
  have hnodup : ((call.canceled ++ decision :: stage.pending).map (·.operationId)).Nodup :=
    ((hp.append_left call.canceled).map _).nodup_iff.1 h.nodup
  have hu := (h.unstarted hres).1
  unfold ImportCall.recordTerminal ImportCall.record
  by_cases hmine : requested = true ∧ status = .canceled
  · rw [if_pos hmine, if_pos hdec.1]
    refine ⟨rfl, rfl, rfl, ?_, ?_, fun _ => hc,
      hacc _ rfl ⟨hcommitted, ?_, hres⟩, fun _ => ⟨hu, fun _ _ _ => hstart _ _ _⟩,
        fun _ _ _ _ hst => absurd hst (hstart _ _ _)⟩
    · intro other hm
      simp only [mem_append, mem_singleton] at hm hs'
      rcases hm with (((hm | rfl) | hm | rfl) | hm) | hm
      · exact hs' other (.inl (.inl hm))
      · exact hdec
      · exact hs' other (.inl (.inr hm))
      · exact hdec
      · exact hs' other (.inr hm)
      · exact hs other hm
    · simpa [append_assoc] using hnodup
    · exact congrArg (· ++ [decision]) hstop
  · rw [if_neg hmine]
    refine ⟨rfl, rfl, rfl, ?_, ?_, fun _ => hc, hacc _ rfl ⟨hcommitted, hstop, hres⟩,
      fun _ => ⟨hu, fun _ _ _ => hstart _ _ _⟩, fun _ _ _ _ hst => absurd hst (hstart _ _ _)⟩
    · intro other hm
      rcases mem_append.1 hm with hm | hm
      · exact hs' other hm
      · exact hs other hm
    · refine hnodup.sublist (List.Sublist.map _ ?_)
      exact (sublist_cons_self _ _).append_left _

/-- Stages before an operation has been canceled. -/
def ImportStage.isEarly : ImportStage ext → Bool
  | .allocating | .previewing | .planning _ | .requesting .. => true
  | _ => false

def ImportStage.isWaiting : ImportStage ext → Bool
  | .waiting .. | .reconciling _ => true
  | _ => false

theorem ImportCall.Inv.untouched_of_isEarly
    (hearly : call.stage.isEarly = true) : call.Untouched := by
  have hacc := h.accounted
  unfold ImportCall.Accounted at hacc
  cases hst : call.stage with
  | allocating | previewing | planning | requesting =>
    rw [hst] at hacc
    exact h.untouched hacc
  | _ => simp [hst, ImportStage.isEarly] at hearly

theorem ImportCall.Inv.balanced (hwait : call.stage.isWaiting = true) : call.Balanced := by
  have hacc := h.accounted
  unfold ImportCall.Accounted at hacc
  cases hst : call.stage with
  | waiting | reconciling =>
    rw [hst] at hacc
    exact hacc
  | _ => simp [hst, ImportStage.isWaiting] at hwait

omit h in
theorem ImportCall.Balanced.accounted (h : call.Balanced)
    (hwait : call.stage.isWaiting = true) : call.Accounted := by
  unfold ImportCall.Accounted
  cases hst : call.stage with
  | waiting | reconciling => exact h
  | _ => simp [hst, ImportStage.isWaiting] at hwait

/-- What was stopped is started again. -/
theorem ImportCall.Inv.compensate {outcome : BackupImportOutcome}
    (hout : outcome ≠ .recoveryRequired) (hstop : call.stopped = call.canceled)
    (hres : call.restarted = [])
    (hc : ∀ op, affected op → call.committed = true → op ∈ call.restarts) :
    call.Continues catalogue affected ({ call with phase }.compensate outcome) where
  key := rfl
  selection := rfl
  released := rfl
  inv :=
    { sound := by
        intro decision hm
        refine h.sound decision ?_
        simp only [ImportCall.compensate, ImportStage.decisions, mem_append,
          not_mem_nil, or_false] at hm ⊢
        rcases hm with (hm | hm) | hm
        · exact .inl (.inl (.inl hm))
        · exact .inl (.inr hm)
        · exact .inl (.inl (.inr hm))
      nodup := by
        refine h.nodup.sublist (List.Sublist.map _ ?_)
        simp [ImportCall.compensate, ImportStage.pending]
      covered := fun _ op ha hcommitted => hc op ha hcommitted
      accounted := ⟨hout, rfl, by simp [ImportCall.compensate, hres, hstop]⟩
      unstarted := fun hn => ⟨(h.unstarted hn).1, by simp [ImportCall.compensate]⟩
      named := by simp [ImportCall.compensate] }

/-- Nothing is started again by a call after which somebody has to look. -/
theorem ImportCall.Inv.retain (hres : call.restarted = [])
    (hc : ∀ op, affected op → call.committed = true →
      op ∈ call.restarts) {releaseOnDrop : Bool} {outcome : Option BackupImportOutcome}
    (hout : ∀ o, outcome = some o → o = .recoveryRequired) :
    call.Continues catalogue affected { call.retainForRecovery with
      phase, releaseOnDrop, stage := .returning outcome } where
  key := rfl
  selection := rfl
  released := rfl
  inv :=
    { sound := by
        intro decision hm
        refine h.sound decision ?_
        simp only [ImportCall.retainForRecovery, ImportStage.decisions, ImportStage.pending,
          mem_append, not_mem_nil, or_false] at hm ⊢
        rcases hm with hm | hm
        · exact .inl (.inl (.inl hm))
        · exact .inl (.inr hm)
      nodup := by
        refine h.nodup.sublist (List.Sublist.map _ ?_)
        simp [ImportCall.retainForRecovery, ImportStage.pending]
      covered := fun _ op ha hcommitted => hc op ha hcommitted
      accounted := by
        cases outcome with
        | none => trivial
        | some o => exact ⟨rfl, hres.trans (if_pos (hout o rfl)).symm⟩
      unstarted := fun hn => ⟨(h.unstarted hn).1, by simp⟩
      named := by simp }

end Stages

end LogosInspector.Operations
