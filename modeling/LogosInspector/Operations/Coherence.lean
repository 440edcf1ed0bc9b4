import LogosInspector.Operations.Correlation

/-!
# Fields that belong together

Some fields of a record only make sense together: an operation has a reason to have ended exactly if
it has, only one that was completed has a result, the request is kept as long as the operation may
be restarted, and bytes of an error are counted as redacted exactly if something stands in its
place.

A record is *coherent* if this is so. Every change keeps this but one: an acceptance clears the
error and not the count. An adapter that could not clean up leaves an error, and it may be accepted
afterwards; if that error was too long to be kept, the count then belongs to nothing
(`acceptance_leaves_redacted_bytes`). In all other runs every record is coherent.
-/

namespace LogosInspector.Operations

open Mutation
open RegistryState (initial)

section Coherence

variable {ext : OperationExternals} {r r' : RuntimeOperationRecord ext}

/-- The error of a record is one that was given: in full, or with a placeholder in its place and its
bytes counted. -/
def RuntimeOperationRecord.Redacts (record : RuntimeOperationRecord ext) : Prop :=
  ∃ given, boundedTerminalOperationError given = (record.operation.error, record.errorRedactedBytes)

/-- **Fields that belong together.** -/
structure Coherent (record : RuntimeOperationRecord ext) : Prop where
  reason : record.operation.terminalReason.isSome = record.operation.status.isTerminal
  result : record.operation.result.isSome = true ∨ record.resultPurged = true →
    record.operation.status = .completed
  request : record.restartRequest.isSome = !record.operation.status.isTerminal
  redacts : record.Redacts

/-- A coherent record, the error of which is not redacted if the operation is one of those that are
`spared` and is not over. -/
structure Spares (spared : Text → Prop) (record : RuntimeOperationRecord ext) : Prop where
  coherent : Coherent record
  unredacted : spared record.operation.operationId → record.operation.status.isTerminal = false →
    record.errorRedactedBytes = 0

variable {spared : Text → Prop}

theorem spares_essence : Spares spared r.essence ↔ Spares spared r := by
  constructor <;> intro h
  all_goals exact ⟨⟨h.coherent.reason, h.coherent.result, h.coherent.request, h.coherent.redacts⟩,
    h.unredacted⟩

theorem Spares.of_essence (h : Spares spared r) (he : r'.essence = r.essence) :
    Spares spared r' :=
  spares_essence.1 (he ▸ spares_essence.2 h)

/-- A change of an operation that is not over, and still is not. -/
theorem Spares.of_running (h : Spares spared r) (hrun : r.operation.status.isTerminal = false)
    (hrunning' : r'.operation.status.isTerminal = false)
    (hr : r'.operation.terminalReason = r.operation.terminalReason ∨
      r'.operation.terminalReason = none)
    (hres : r'.operation.result = r.operation.result ∨ r'.operation.result = none)
    (hpurge : r'.resultPurged = r.resultPurged)
    (hreq : r'.restartRequest = r.restartRequest) (hredacts : r'.Redacts)
    (hs : spared r'.operation.operationId → r'.errorRedactedBytes = 0) :
    Spares spared r' := by
  -- as long as it is not over it has neither a reason nor a result
  have hn : r.operation.terminalReason = none := by
    simpa [hrun] using h.coherent.reason
  have hno : ¬ (r.operation.result.isSome = true ∨ r.resultPurged = true) := by
    intro hsome
    simp [h.coherent.result hsome, OperationStatus.isTerminal] at hrun
  refine ⟨⟨?_, fun hsome => absurd ?_ hno, ?_, hredacts⟩, fun hid _ => hs hid⟩
  · rw [hrunning']
    rcases hr with hr | hr <;> simp [hr, hn]
  · rw [hpurge] at hsome
    refine hsome.imp_left fun hsome => ?_
    rcases hres with hres | hres
    · rwa [hres] at hsome
    · simp [hres] at hsome
  · rw [hreq, hrunning', h.coherent.request, hrun]

/-- Transitions that leave the operations coherent: those that are accepted are spared, and they are
not those that could not be cleaned up after. -/
def Allows (spared : Text → Prop) (operationId : Text) : RuntimeOperationTransition → Prop
  | .resolved (.accepted _) => spared operationId
  | .cleanupUnconfirmed _ => ¬ spared operationId
  | _ => True

/-- Records that are spared stay so. -/
def StaysSpared (spared : Text → Prop) (record record' : RuntimeOperationRecord ext) : Prop :=
  Spares spared record → Spares spared record'

instance : Std.Refl (α := RuntimeOperationRecord ext) (StaysSpared spared) := ⟨fun _ => id⟩

instance : IsTrans (RuntimeOperationRecord ext) (StaysSpared spared) :=
  ⟨fun _ _ _ h h' => h' ∘ h⟩

theorem keptByEdits_staysSpared {clock : WallClock ext} :
    KeptByEdits clock (StaysSpared spared) where
  push _ _ h hspare := hspare.of_essence (pushEvent_essence h)
  report {r} status _ _ _ hrun hs hspare := by
    refine hspare.of_running hrun ?_ (.inl rfl) (.inl rfl) rfl rfl hspare.coherent.redacts
      fun hspared => hspare.unredacted hspared hrun
    rcases hs with rfl | rfl
    · exact hrun
    · rfl
  leave _ hrun hspare :=
    hspare.of_running hrun hrun (.inl rfl) (.inl rfl) rfl rfl hspare.coherent.redacts
      fun hspared => hspare.unredacted hspared hrun
  terminate {r r' status result error reason phase msg progress} hrun hs _ hres h hspare := by
    refine Spares.of_essence ?_ (pushEvent_essence h)
    have hpurge : r.resultPurged = false := by
      rw [← Bool.not_eq_true]
      intro hpurge
      simp [hspare.coherent.result (.inr hpurge), OperationStatus.isTerminal] at hrun
    refine ⟨⟨hs.symm, fun hsome => hres ?_, ?_, error, rfl⟩, fun _ hrunning' => ?_⟩
    · rcases hsome with hsome | hsome
      · exact Option.isSome_iff_ne_none.1 hsome
      · exact absurd (hpurge.symm.trans hsome) (by decide)
    · show false = !status.isTerminal
      rw [hs]
      rfl
    · exact absurd (hs.symm.trans hrunning') (by decide)

/-- **Every change of a record**, with the transitions limited. -/
theorem staysSpared_upheld (spared : Text → Prop) :
    Upheld (Allows spared) (StaysSpared spared : _ → RuntimeOperationRecord ext → Prop) := by
  refine .of_edits (fun _ => keptByEdits_staysSpared) ?_ ?_
    (fun _ _ h hspare => hspare.of_essence (pushEvent_essence h)) ?_ ?_
  · intro r error hrun _ hall hspare
    exact hspare.of_running hrun rfl (.inl rfl) (.inl rfl) rfl rfl ⟨some error, rfl⟩
      fun hspared => absurd hspared hall
  · intro r acc hrun hspared hspare
    -- the error is cleared, and there is no count to be cleared
    have hzero := hspare.unredacted hspared hrun
    exact hspare.of_running hrun (accepted_running r acc) (.inr rfl) (.inr rfl) rfl rfl
      ⟨none, Prod.ext rfl hzero.symm⟩ fun _ => hzero
  · intro r hp hspare
    have hc := hspare.coherent
    unfold RuntimeOperationRecord.purged
    split
    · exact ⟨⟨hc.reason, hc.result, hc.request, hc.redacts⟩, hspare.unredacted⟩
    · next hn =>
      -- what is purged is the result of an operation that was completed
      rw [hn, Option.isSome_none, Bool.or_false] at hp
      exact ⟨⟨hc.reason, fun _ => hc.result (.inl hp), hc.request, hc.redacts⟩, hspare.unredacted⟩
  · intro r _ _ hover hspare
    have hc := hspare.coherent
    refine ⟨⟨hc.reason, hc.result, ?_, hc.redacts⟩, hspare.unredacted⟩
    show false = !r.operation.status.isTerminal
    rw [hover]
    rfl

/-! ### Runs -/

/-- A call that does not accept an operation whose error is redacted. -/
def RegistryCall.Harmless (state : RegistryState ext) : RegistryCall ext → Prop
  | .transition operationId (.resolved (.accepted _)) =>
    ∀ record, state.records.find? operationId = some record →
      record.operation.status.isTerminal = false → record.errorRedactedBytes = 0
  | _ => True

/-- The operations that a call accepts. -/
def RegistryCall.Accepts (call : RegistryCall ext) (operationId : Text) : Prop :=
  ∃ acceptance, call = .transition operationId (.resolved (.accepted acceptance))

theorem running_spares (op : Text) (req : RuntimeOperationRequest ext) (now : ℕ) :
    Spares spared (runningRuntimeOperationRecord op req now) where
  coherent := ⟨rfl, fun h => by simp [runningRuntimeOperationRecord] at h, rfl, none, rfl⟩
  unredacted := fun _ _ => rfl

theorem RegistryCall.permitted_accepts (call : RegistryCall ext) :
    call.Permitted (Allows call.Accepts) (Spares call.Accepts) := by
  cases call with
  | insert => exact running_spares _ _ _
  | transition _ change =>
    cases change with
    | resolved outcome =>
      cases outcome with
      | accepted acc => exact ⟨acc, rfl⟩
      | _ => trivial
    | cleanupUnconfirmed =>
      rintro ⟨_, heq⟩
      cases heq
    | _ => trivial
  | _ => trivial

/-- A harmless call leaves coherent records. -/
theorem perform_coherent {s : RegistryState ext} (readings : Readings ext) {call : RegistryCall ext}
    (hc : call.Harmless s) (h : ∀ r ∈ s.records, Coherent r) :
    ∀ r ∈ (left (call.perform readings s)).records, Coherent r := by
  have he : StateEvolves (StaysSpared call.Accepts) (Spares call.Accepts) s _ :=
    keeps_perform (staysSpared_upheld _) readings call call.permitted_accepts s
  intro r' hm
  obtain ⟨r, hr | hnew, hspare⟩ := he r' hm
  · refine (hspare ⟨h r hr, ?_⟩).coherent
    rintro ⟨_, rfl⟩ hrun
    exact hc r (Table.find?_eq_some.2 ⟨hr, rfl⟩) hrun
  · exact (hspare hnew).coherent

/-- **Records are coherent** after every run in which no operation is accepted whose error has been
redacted, and an operation that a module has accepted has the id that its contract needs. -/
theorem record_fields_coherent (calls : List (Readings ext × RegistryCall ext))
    (hcalls : ∀ before readings call after, calls = before ++ (readings, call) :: after →
      call.Harmless ((initial ext).run before)) :
    ∀ record ∈ ((initial ext).run calls).records, Coherent record ∧
      ∀ contract, record.operation.terminalEvent = some contract →
        (operationCorrelationValue record.operation contract.correlation).isSome = true := by
  intro record hmem
  refine ⟨?_, fun contract hcontract => ?_⟩
  · induction calls using List.reverseRecOn generalizing record with
    | nil => exact absurd hmem Table.not_mem_empty
    | append_singleton calls last ih =>
      obtain ⟨readings, call⟩ := last
      rw [run_append_one] at hmem
      refine perform_coherent readings (hcalls calls readings call [] rfl) (fun other hother => ?_)
        record hmem
      refine ih (fun before readings' call' after heq => ?_) other hother
      exact hcalls before readings' call' (after ++ [(readings, call)]) (by simp [heq])
  · obtain ⟨identity, hwaits⟩ := (run_correlated calls).identified record hmem contract hcontract
    exact Option.isSome_iff_exists.2 ⟨identity, hwaits.identity⟩

end Coherence

/-! ### A sample -/

/-- An upload that could not be cleaned up after, and that a module accepts afterwards. -/
def uncleanedUpload (error : Text) :
    List (Readings sampleExternals × RegistryCall sampleExternals) :=
  [.insert "upload".toList sampleRequest 1000,
    .transition "upload".toList (.cleanupUnconfirmed error),
    .transition "upload".toList (.resolved (.accepted sampleAcceptance))].map
      fun call => (sampleReadings, call)

theorem record_fields_coherent_sample :
    ∃ record ∈ ((initial sampleExternals).run (uncleanedUpload "no".toList)).records,
      record.operation.status = .canceling ∧ Coherent record := by
  have hsome : (((initial sampleExternals).run (uncleanedUpload "no".toList)).records.find?
      "upload".toList).any (fun record => record.operation.status = .canceling) = true := by
    decide +kernel
  have hzero : (((initial sampleExternals).run
      ((uncleanedUpload "no".toList).take 2)).records.find? "upload".toList).all
        (fun record => record.errorRedactedBytes = 0) = true := by decide +kernel
  obtain ⟨record, hrecord, hstatus⟩ := (Option.any_eq_true _ _).1 hsome
  have hmem := (Table.find?_eq_some.1 hrecord).1
  refine ⟨record, hmem, of_decide_eq_true hstatus, (record_fields_coherent _ ?_ record hmem).1⟩
  intro before _ _ _ heq
  rcases before with _ | ⟨_, _ | ⟨_, _ | ⟨_, _⟩⟩⟩
  · cases heq
    trivial
  · cases heq
    trivial
  · cases heq
    intro record hrecord _
    exact of_decide_eq_true (Option.all_eq_true _ _ |>.1 hzero record hrecord)
  · simp [uncleanedUpload] at heq

/-- **An acceptance leaves the count of an error that it clears.** -/
theorem acceptance_leaves_redacted_bytes : ∃ record ∈ ((initial sampleExternals).run
        (uncleanedUpload (List.replicate 16385 'x'))).records,
      record.operation.error = none ∧ record.errorRedactedBytes ≠ 0 := by
  have hsome : (((initial sampleExternals).run
      (uncleanedUpload (List.replicate 16385 'x'))).records.find? "upload".toList).any
        (fun record => record.operation.error = none ∧ record.errorRedactedBytes ≠ 0) = true := by
    decide +kernel
  obtain ⟨record, hrecord, hfields⟩ := (Option.any_eq_true _ _).1 hsome
  exact ⟨record, (Table.find?_eq_some.1 hrecord).1, of_decide_eq_true hfields⟩

end LogosInspector.Operations
