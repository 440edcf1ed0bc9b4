import LogosInspector.Operations.Correlation
import LogosInspector.Operations.Quiescence

/-!
# Exclusive operations exclude each other

Uploads, downloads and removals of the storage module are exclusive: of each group at most one runs.
This is checked when a record is inserted and only then. An operation keeps its group and, once it
is over, stays over; so whatever else is called, the check is still good (`Exclusive.origin`).

The supervisor and the imports, which start some operations again that they have stopped, reach the
registry only by its calls (`ImportSystem.Reachable.run`).
-/

namespace LogosInspector.Operations

open Mutation

section Exclusion

variable {ext : OperationExternals} {s : RegistryState ext}
  {r r' : RuntimeOperationRecord ext}

/-! ### What an operation keeps -/

/-- An operation that keeps its group and, once it is over, stays over. -/
structure Persists (record record' : RuntimeOperationRecord ext) : Prop where
  operationId : record'.operation.operationId = record.operation.operationId
  exclusiveGroup : record'.operation.exclusiveGroup = record.operation.exclusiveGroup
  stays : record.operation.status.isTerminal = true → record'.operation.status.isTerminal = true

instance : Std.Refl (α := RuntimeOperationRecord ext) Persists := ⟨fun _ => ⟨rfl, rfl, id⟩⟩

instance : IsTrans (RuntimeOperationRecord ext) Persists :=
  ⟨fun _ _ _ h h' => ⟨h'.operationId.trans h.operationId, h'.exclusiveGroup.trans h.exclusiveGroup,
    h'.stays ∘ h.stays⟩⟩

theorem SameCharter.persists (h : SameCharter r r') (hover : r.operation.status.isTerminal = true →
      r'.operation.status.isTerminal = true) : Persists r r' :=
  ⟨h.sameContract.operationId, h.exclusiveGroup, hover⟩

theorem Settles.persists (h : Settles r r') : Persists r r' :=
  h.charter.persists fun hover => h.status ▸ hover

theorem Persists.of_running (hrun : r.operation.status.isTerminal = false)
    (hid : r'.operation.operationId = r.operation.operationId)
    (hgroup : r'.operation.exclusiveGroup = r.operation.exclusiveGroup) :
    Persists r r' :=
  ⟨hid, hgroup, fun hover => by simp [hrun] at hover⟩

theorem Persists.of_essence (h : r'.essence = r.essence) : Persists r r' := by
  have hs : r'.operation.status = r.operation.status :=
    congrArg (·.operation.status) h
  exact Settles.persists ⟨.of_essence h, hs⟩

theorem keptByEdits_persists {clock : WallClock ext} : KeptByEdits clock Persists where
  push _ _ h := .of_essence (pushEvent_essence h)
  report _ _ _ _ hrun _ := .of_running hrun rfl rfl
  leave _ hrun := .of_running hrun rfl rfl
  terminate hrun _ _ _ h := .of_running hrun
    (congrArg (·.operation.operationId) (pushEvent_essence h))
    (congrArg (·.operation.exclusiveGroup) (pushEvent_essence h))

theorem persists_upheld :
    Upheld (fun _ _ => True) (Persists : _ → RuntimeOperationRecord ext → Prop) := by
  refine .of_edits (fun _ => keptByEdits_persists) (fun _ _ hrun _ _ => .of_running hrun rfl rfl)
    (fun _ _ hrun _ => .of_running hrun rfl rfl)
    (fun _ _ h => .of_essence (pushEvent_essence h)) (fun _ _ => ?_)
    fun _ _ _ _ => ⟨rfl, rfl, id⟩
  unfold RuntimeOperationRecord.purged
  split <;> exact ⟨rfl, rfl, id⟩

/-! ### Exclusion -/

/-- **Of each exclusive group at most one operation runs.** -/
def Exclusive (records : Records ext) : Prop :=
  ∀ record ∈ records, ∀ other ∈ records, ∀ group,
    record.operation.exclusiveGroup = some group → other.operation.exclusiveGroup = some group →
    record.operation.status.isTerminal = false → other.operation.status.isTerminal = false →
    record = other

theorem Exclusive.origin {before after : Records ext} (h : Exclusive before)
    (ho : ∀ r' ∈ after, ∃ r ∈ before, Persists r r') : Exclusive after := by
  have hrun {r r' : RuntimeOperationRecord ext} (hp : Persists r r')
      (hrun : r'.operation.status.isTerminal = false) :
      r.operation.status.isTerminal = false := by
    rw [← Bool.not_eq_true]
    intro hover
    simp [hp.stays hover] at hrun
  intro first' hfirst' second' hs' group hgroup hgroup' hrunning₁ hrunning₂
  obtain ⟨first, hfirst, hp⟩ := ho first' hfirst'
  obtain ⟨second, hs, hp'⟩ := ho second' hs'
  obtain rfl := h first hfirst second hs group (hp.exclusiveGroup.symm.trans hgroup)
    (hp'.exclusiveGroup.symm.trans hgroup') (hrun hp hrunning₁)
    (hrun hp' hrunning₂)
  exact Table.eq_of_key_eq hfirst' hs' (hp.operationId.trans hp'.operationId.symm)

theorem Exclusive.evolves {s' : RegistryState ext} (h : Exclusive s.records)
    (he : StateEvolves Persists (fun _ => False) s s') : Exclusive s'.records := by
  refine h.origin fun r' hm => ?_
  obtain ⟨r, hr | hfalse, hp⟩ := he r' hm
  · exact ⟨r, hr, hp⟩
  · exact hfalse.elim

theorem Exclusive.swept {before after : RegistryState ext} (h : Exclusive before.records)
    (hsw : Swept before after) : Exclusive after.records := by
  refine h.origin fun r' hm => ?_
  obtain ⟨r, hr, hpurge⟩ := hsw.origin r' hm
  exact ⟨r, hr, hpurge.settles.persists⟩

theorem Exclusive.track (h : Exclusive s.records) (op : Text) (terminalAt terminalExpiresAt : ℕ) :
    Exclusive (trackNewlyTerminalRecord op terminalAt terminalExpiresAt s).records := by
  refine h.origin fun r' hm => ?_
  rcases mem_track hm with hkept | ⟨r, hr, -, hset⟩
  · exact ⟨r', hkept, Std.Refl.refl _⟩
  · exact ⟨r, hr, hset.persists⟩

/-- **A record can be inserted** if nothing of its group runs. -/
theorem Exclusive.insert {records : Records ext} (h : Exclusive records)
    (hfree : ∀ group, r.operation.exclusiveGroup = some group →
      records.records.any (activeOperationInExclusiveGroup · group) = false) :
    Exclusive (records.insert r) := by
  have hnew {other : RuntimeOperationRecord ext} (ho : other ∈ records)
      {group : OperationExclusiveGroup} (hg : r.operation.exclusiveGroup = some group)
      (hg' : other.operation.exclusiveGroup = some group)
      (hrun : other.operation.status.isTerminal = false) : False := by
    have hi := List.any_eq_false.1 (hfree group hg) other ho
    simp [activeOperationInExclusiveGroup, hg', hrun] at hi
  intro first hf second hs group hg hg' hrun hrunning'
  rcases Table.mem_insert.1 hf with hf | ⟨hf, -⟩ <;>
    rcases Table.mem_insert.1 hs with hs | ⟨hs, -⟩
  · exact hf.trans hs.symm
  · exact (hnew hs (hf ▸ hg) hg' hrunning').elim
  · exact (hnew hf (hs ▸ hg') hg hrun).elim
  · exact h first hf second hs group hg hg' hrun hrunning'

/-- **Whatever is called, exclusive operations exclude each other.** -/
theorem perform_exclusive (hsound : RegistrySound s) (h : Exclusive s.records)
    (readings : Readings ext) (call : RegistryCall ext) :
    Exclusive (Mutation.left (call.perform readings s)).records := by
  by_cases hi : ∃ op req now, call = .insert op req now
  · obtain ⟨op, req, now, rfl⟩ := hi
    change Exclusive (Mutation.left (Operations.insert readings _ s)).records
    rcases insert_result readings (runningRuntimeOperationRecord op req now) hsound.journals with
      ⟨e, heq⟩ | ⟨swept, -, hsw, ⟨e, heq⟩ | ⟨expiry, final, -, hfree, heq, hfin⟩⟩
    all_goals rw [heq]
    · exact h
    · exact h.swept hsw
    · exact Exclusive.swept (Exclusive.track ((h.swept hsw).insert hfree) _ _ _) hfin
  · refine h.evolves (keeps_perform persists_upheld readings call ?_ s)
    cases call with
    | insert op req now => exact absurd ⟨op, req, now, rfl⟩ hi
    | _ => trivial

theorem run_exclusive (calls : List (Readings ext × RegistryCall ext)) :
    Exclusive ((RegistryState.initial ext).run calls).records := by
  induction calls using List.reverseRecOn with
  | nil => exact fun _ hm => absurd hm Table.not_mem_empty
  | append_singleton calls last ih =>
    obtain ⟨readings, call⟩ := last
    rw [run_append_one]
    exact perform_exclusive (run_registrySound calls) ih readings call

/-- **A second operation of a group is refused.** The registry is left as it was, or as the sweep at
the start of the call leaves it. -/
theorem insert_refused (hsound : RegistrySound s) (readings : Readings ext)
    {group : OperationExclusiveGroup} {active : RuntimeOperationRecord ext}
    (hac : active ∈ s.records) (hrun : active.operation.status.isTerminal = false)
    (hgroup : active.operation.exclusiveGroup = some group)
    (hs : r.operation.exclusiveGroup = some group) :
    ∃ e after, insert readings r s = .error e after ∧ OnlySwept readings s after := by
  rcases insert_result readings r hsound.journals with
    ⟨e, heq⟩ | ⟨swept, hsweep, hsw, ⟨e, heq⟩ | ⟨_, _, _, hfree, _, _⟩⟩
  · exact ⟨e, s, heq, .inl (.refl s)⟩
  · exact ⟨e, swept, heq, .inr ⟨swept, hsweep, hsw, .refl swept⟩⟩
  · have hi := List.any_eq_false.1 (hfree group hs) active (hsw.running active hac hrun)
    simp [activeOperationInExclusiveGroup, hgroup, hrun] at hi

/-! ### The whole system -/

/-- Registries of which calls lead from one to the other. -/
def Runs (before after : RegistryState ext) : Prop := ∃ calls, after = before.run calls

instance : Std.Refl (α := RegistryState ext) Runs := ⟨fun _ => ⟨[], rfl⟩⟩

instance : IsTrans (RegistryState ext) Runs where
  trans := by
    rintro _ _ _ ⟨calls, rfl⟩ ⟨calls', rfl⟩
    exact ⟨calls ++ calls', (List.foldl_append).symm⟩

theorem runs_call (readings : Readings ext) (call : RegistryCall ext) :
    Keeps Runs (call.perform readings) :=
  fun _ => ⟨[(readings, call)], rfl⟩

variable {readings : Readings ext} {catalogue : OperationCatalogue ext} {s : ImportSystem ext}

/-- What a call comes to does not depend on what it answers. -/
theorem runs_discard {α : Type} {m : Mutation (RegistryState ext) α}
    {call : RegistryCall ext} (h : call.perform readings = m >>= fun _ => pure ()) :
    Keeps Runs m := by
  intro s
  have hc := runs_call readings call s
  rw [h] at hc
  unfold KeepsAt at hc ⊢
  rwa [left_discard] at hc

theorem runs_keptByCalls : KeptByCalls (Runs : RegistryState ext → RegistryState ext → Prop) where
  transition readings op change := by
    have h : (RegistryCall.transition op change).perform readings = _ := rfl
    exact runs_discard h
  ingest readings event := by
    have h : (RegistryCall.ingestModuleEvent event).perform readings = _ := rfl
    exact runs_discard h
  inspect readings := by
    have h : RegistryCall.inspect.perform readings = _ := rfl
    exact runs_discard h
  remove op := fun _ => ⟨[(⟨0, 0, fun _ => 0⟩, .remove op)], rfl⟩

/-- **The registry of the system is what some calls have made of it.** -/
theorem ImportSystem.Reachable.run (h : ImportSystem.Reachable catalogue s) :
    Runs (RegistryState.initial ext) s.operations.registry := by
  induction h with
  | initial => exact Std.Refl.refl _
  | step action _ hstep ih =>
    refine IsTrans.trans _ _ _ ih ?_
    exact (ImportSystem.keeps_perform runs_keptByCalls
      (fun readings op req now => runs_call readings (.insert op req now))
      catalogue action _).of_ok hstep

/-- What inserting the record of an operation that is started, or started again, does to the
registry. -/
theorem ImportSystem.insertRecord_registry
    {s' : ImportSystem ext} {who : Option ℕ}
    {bound : RuntimeOperationRequest ext} {now : ℕ} {u : Unit}
    (hok : ImportSystem.insertRecord catalogue who readings bound now s = .ok u s') :
    ∃ op, s'.operations.registry = Mutation.left (Operations.insert readings
      (runningRuntimeOperationRecord op bound now) s.operations.registry) := by
  simp only [ImportSystem.insertRecord, get_bind] at hok
  rcases hstart : s.startOf who with _ | ⟨req, _ | op⟩ <;> rw [hstart] at hok
  · cases hok
  · cases hok
  · simp only [bind_ok_iff, enabled_eq_ok, ImportSystem.onOperations,
      zoom_eq_ok, Supervisor.insertRecord, get_eq_ok] at hok
    obtain ⟨_, _, ⟨-, rfl⟩, _, ⟨_, _, ⟨rfl, rfl⟩, _, _, ⟨-, rfl⟩, hok⟩, rfl⟩ := hok
    refine ⟨op, ?_⟩
    cases hi : Operations.insert readings
        (runningRuntimeOperationRecord op bound now) s.operations.registry with
    | ok _ _ | error _ _ =>
      rw [hi] at hok
      rw [← set_eq_ok.1 hok]
      rfl

/-- **Exclusive operations exclude each other.**

* After any calls of the registry, and so in every state of the supervisor and the imports, at most
  one operation of each exclusive group runs.
* While one runs, inserting the record of another of the group fails. It leaves the registry as it
  was, or as the sweep at the start of the call leaves it, which removes and purges only what is
  over.
* So it is when the record is one of an operation that somebody starts, or that an import starts
  again: the registry that is left is one that has at most been swept. -/
theorem exclusive_operations_exclude (catalogue : OperationCatalogue ext) :
    (∀ calls, Exclusive ((RegistryState.initial ext).run calls).records) ∧
    (∀ s, ImportSystem.Reachable catalogue s → Exclusive s.operations.registry.records) ∧
    (∀ calls readings (record : RuntimeOperationRecord ext) group,
      ∀ active ∈ ((RegistryState.initial ext).run calls).records,
      active.operation.status.isTerminal = false →
      active.operation.exclusiveGroup = some group → record.operation.exclusiveGroup = some group →
      ∃ e after, insert readings record ((RegistryState.initial ext).run calls) = .error e after ∧
        OnlySwept readings ((RegistryState.initial ext).run calls) after) ∧
    (∀ s s', ImportSystem.Reachable catalogue s → ∀ who readings bound now group,
      (ImportSystem.Action.insertRecord who readings bound now).perform catalogue s = .ok () s' →
      ∀ active ∈ s.operations.registry.records, active.operation.status.isTerminal = false →
      active.operation.exclusiveGroup = some group → bound.exclusiveGroup = some group →
      OnlySwept readings s.operations.registry s'.operations.registry) := by
  refine ⟨run_exclusive, fun s hs => ?_, ?_, ?_⟩
  · obtain ⟨calls, hcalls⟩ := hs.run
    rw [hcalls]
    exact run_exclusive calls
  · intro calls readings _ group active hactive hrunning hgroup hsame
    exact insert_refused (run_registrySound calls) readings hactive hrunning hgroup hsame
  · intro s _ hs _ readings bound now group hok _ hactive hrunning hgroup hsame
    obtain ⟨calls, hcalls⟩ := hs.run
    have hsound : RegistrySound s.operations.registry := hcalls ▸ run_registrySound calls
    obtain ⟨operationId, hregistry⟩ := ImportSystem.insertRecord_registry hok
    have hbound : (runningRuntimeOperationRecord operationId bound now).operation.exclusiveGroup =
      some group := hsame
    obtain ⟨_, _, heq, hswept⟩ := insert_refused hsound readings hactive hrunning hgroup hbound
    rw [hregistry, heq]
    exact hswept

/-- **The supervisor and the imports change the registry only by its calls.** So in all states:

* each operation that waits for a module was accepted by one of the calls, and modules can tell the
  operations apart;
* a sweep, at whatever time, does not fail. It takes away neither what runs nor what is deferred,
  and leaves the registry sound. -/
theorem import_system_refines_registry (catalogue : OperationCatalogue ext) :
    (∀ action s s', ImportSystem.Action.perform catalogue action s = .ok () s' →
      Runs s.operations.registry s'.operations.registry) ∧
    ∀ s, ImportSystem.Reachable catalogue s → ∃ calls,
      s.operations.registry = (RegistryState.initial ext).run calls ∧
      Correlated s.operations.registry.records ∧
      (∀ record ∈ s.operations.registry.records, ∀ contract,
        record.operation.terminalEvent = some contract →
        ∃ acceptance, AcceptedBy calls record acceptance) ∧
      ∀ now monotonicNow, ∃ swept,
        sweepTerminalHistory now monotonicNow s.operations.registry = .ok () swept ∧
        Swept s.operations.registry swept ∧ RegistrySound swept := by
  refine ⟨fun action _ _ hstep => ?_, fun s hs => ?_⟩
  · exact (ImportSystem.keeps_perform runs_keptByCalls
      (fun readings op req now => runs_call readings (.insert op req now))
      catalogue action _).of_ok hstep
  · obtain ⟨calls, hcalls⟩ := hs.run
    rw [hcalls]
    exact ⟨calls, rfl, run_correlated calls, run_accepted calls, (run_registrySound calls).sweep⟩

end Exclusion

/-- An upload that has failed, and one that runs. -/
def secondUploadCalls : List (Readings sampleExternals × RegistryCall sampleExternals) :=
  [(sampleReadings, .insert "a".toList sampleRequest 1000),
    (sampleReadings, .transition "a".toList (.executionFailed "refused".toList)),
    (sampleReadings, .insert "b".toList sampleRequest 1000)]

/-- **What is refused may change the registry.** When another upload is started, after the record of
the one that has failed has expired, the start is refused and the record is gone. -/
theorem refused_start_sweeps : ∃ e after,
    insert ⟨1000, 1000 + terminalRecordMaxAgeMillis, fun _ => 1000⟩
      (runningRuntimeOperationRecord "c".toList sampleRequest 1000)
      ((RegistryState.initial sampleExternals).run secondUploadCalls) = .error e after ∧
    e = exclusiveOperationMessage .upload ∧
    ((RegistryState.initial sampleExternals).run secondUploadCalls).records.contains "a".toList =
      true ∧
    after.records.contains "a".toList = false := by
  refine ⟨_, _, rfl, ?_, ?_, ?_⟩
  · decide +kernel
  · decide +kernel
  · decide +kernel

end LogosInspector.Operations
