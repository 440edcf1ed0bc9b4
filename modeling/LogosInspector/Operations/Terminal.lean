import LogosInspector.Operations.Evolution

/-!
# The first terminal state wins

Every change of a record *advances* it: a record that is not over stays sound, and one that is
over keeps all that it has to say – how and why it ended, with which error and after how many
bytes – and its history, whose last event is the one that ended it. Only its result and its
acknowledgement can be purged. As this is upheld by every change of one record, it holds along
every run of the registry.
-/

namespace LogosInspector.Operations

open Mutation
open RegistryState (initial)

section Terminal

variable {ext : OperationExternals}

/-! ### Records -/

/-- What holds of every record of a registry. -/
structure Sound (record : RuntimeOperationRecord ext) : Prop where
  accounted : Accounted record
  opened : record.operation.status.isTerminal = false → Open record.events
  closed : record.operation.status.isTerminal = true → Closed record.events
  released : record.operation.status.isTerminal = true →
    record.restartRequest = none ∧ record.pendingModuleName = none
  /-- While an operation waits for a module it has not been accepted. -/
  unaccepted : record.pendingModuleName ≠ none → record.operation.terminalEvent = none

/-- A payload is what it was, or has been purged. -/
def PurgedOr (payload payload' : Option Json) (purged' : Bool) : Prop :=
  payload' = payload ∨ (payload' = none ∧ purged' = true)

/-- **What stays of an operation that is over.** -/
structure Frozen (record record' : RuntimeOperationRecord ext) : Prop where
  status : record'.operation.status = record.operation.status
  error : record'.operation.error = record.operation.error
  terminalReason : record'.operation.terminalReason = record.operation.terminalReason
  bytesWritten : record'.operation.bytesWritten = record.operation.bytesWritten
  contentLength : record'.operation.contentLength = record.operation.contentLength
  restartRequest : record'.restartRequest = none
  pendingModuleName : record'.pendingModuleName = none
  result : PurgedOr record.operation.result record'.operation.result record'.resultPurged
  acknowledgement : PurgedOr record.operation.acknowledgement record'.operation.acknowledgement
    record'.acknowledgementPurged
  resultPurged : record.resultPurged = true → record'.resultPurged = true
  acknowledgementPurged : record.acknowledgementPurged = true → record'.acknowledgementPurged = true
  /-- The history has ended. -/
  events : record'.events = record.events

theorem PurgedOr.trans {a b c : Option Json} {purged purged' : Bool} (h : PurgedOr a b purged)
    (h' : PurgedOr b c purged') (hp : purged = true → purged' = true) : PurgedOr a c purged' := by
  rcases h' with rfl | h'
  · rcases h with rfl | ⟨rfl, hpurge⟩
    · exact .inl rfl
    · exact .inr ⟨rfl, hp hpurge⟩
  · exact .inr h'

theorem Frozen.trans {a b c : RuntimeOperationRecord ext} (h : Frozen a b) (h' : Frozen b c) :
    Frozen a c where
  status := h'.status.trans h.status
  error := h'.error.trans h.error
  terminalReason := h'.terminalReason.trans h.terminalReason
  bytesWritten := h'.bytesWritten.trans h.bytesWritten
  contentLength := h'.contentLength.trans h.contentLength
  restartRequest := h'.restartRequest
  pendingModuleName := h'.pendingModuleName
  result := h.result.trans h'.result h'.resultPurged
  acknowledgement := h.acknowledgement.trans h'.acknowledgement h'.acknowledgementPurged
  resultPurged := h'.resultPurged ∘ h.resultPurged
  acknowledgementPurged := h'.acknowledgementPurged ∘ h.acknowledgementPurged
  events := h'.events.trans h.events

/-- Records that differ only in what their histories have counted. -/
theorem Frozen.of_essence {a b : RuntimeOperationRecord ext} (h : b.essence = a.essence)
    (hevs : b.events = a.events) (ha : a.restartRequest = none ∧ a.pendingModuleName = none) :
    Frozen a b where
  status := congrArg (·.operation.status) h
  error := congrArg (·.operation.error) h
  terminalReason := congrArg (·.operation.terminalReason) h
  bytesWritten := congrArg (·.operation.bytesWritten) h
  contentLength := congrArg (·.operation.contentLength) h
  restartRequest := (congrArg (·.restartRequest) h).trans ha.1
  pendingModuleName := (congrArg (·.pendingModuleName) h).trans ha.2
  result := .inl (congrArg (·.operation.result) h)
  acknowledgement := .inl (congrArg (·.operation.acknowledgement) h)
  resultPurged := fun hp => (congrArg (·.resultPurged) h).trans hp
  acknowledgementPurged := fun hp => (congrArg (·.acknowledgementPurged) h).trans hp
  events := hevs

/-- **What every change does to a record.** -/
structure Advances (record record' : RuntimeOperationRecord ext) : Prop where
  operationId : record'.operation.operationId = record.operation.operationId
  sound : Sound record → Sound record'
  frozen : Sound record → record.operation.status.isTerminal = true → Frozen record record'

instance : Std.Refl (α := RuntimeOperationRecord ext) Advances :=
  ⟨fun _ => ⟨rfl, id, fun hs hover => .of_essence rfl rfl (hs.released hover)⟩⟩

instance : IsTrans (RuntimeOperationRecord ext) Advances where
  trans _ _ _ h h' := by
    refine ⟨h'.operationId.trans h.operationId, h'.sound ∘ h.sound, fun hs hover => ?_⟩
    have hfrozen := h.frozen hs hover
    exact hfrozen.trans (h'.frozen (h.sound hs) (hfrozen.status ▸ hover))

/-! ### The functions that change a record -/

section Functions

variable {clock : WallClock ext} {r r' : RuntimeOperationRecord ext}

theorem unaccepted_of_essence (h : r'.essence = r.essence)
    (hr : r.pendingModuleName ≠ none → r.operation.terminalEvent = none) :
    r'.pendingModuleName ≠ none → r'.operation.terminalEvent = none := by
  intro hp
  have hs : r'.pendingModuleName = r.pendingModuleName :=
    congrArg (·.pendingModuleName) h
  exact (congrArg (·.operation.terminalEvent) h).trans (hr (hs ▸ hp))

variable {phase : EventPhase} {message : String} {progress : Option ext.F64} {result : Option Json}
  {error : Option Text}

section

variable (hrun : r.operation.status.isTerminal = false)

include hrun

/-- A change of an operation that is not over. -/
theorem Advances.of_running (hid : r'.operation.operationId = r.operation.operationId)
    (h : Sound r → Sound r') : Advances r r' :=
  ⟨hid, h, fun _ hover => by simp [hrun] at hover⟩

/-- The record of an operation that is not over. -/
theorem Sound.of_running (hacc : Accounted r) (hopen : Open r.events)
    (hu : r.pendingModuleName ≠ none → r.operation.terminalEvent = none) :
    Sound r where
  accounted := hacc
  opened := fun _ => hopen
  closed := fun ht => by simp [hrun] at ht
  released := fun ht => by simp [hrun] at ht
  unaccepted := hu

/-- A change of such a record that leaves its history alone. -/
theorem Advances.of_edit (hrunning' : r'.operation.status.isTerminal = false)
    (hid : r'.operation.operationId = r.operation.operationId)
    (hs : SameHistory r r')
    (hp : (r.pendingModuleName ≠ none → r.operation.terminalEvent = none) →
      r'.pendingModuleName ≠ none → r'.operation.terminalEvent = none) :
    Advances r r' :=
  .of_running hrun hid fun hsound => .of_running hrunning'
    (hsound.accounted.same hs) (hs.events ▸ hsound.opened hrun) (hp hsound.unaccepted)

end

/-- **What is done to an operation that is not over** leaves a sound record. -/
theorem keptByEdits_advances : KeptByEdits clock Advances where
  push {r r' _ _ _ _ _} hrun hphase h := by
    have he := pushEvent_essence h
    have hid : r'.operation.operationId = r.operation.operationId :=
      congrArg (·.operation.operationId) he
    refine .of_running hrun hid fun hs => ?_
    obtain ⟨hacc, hopen⟩ :=
      pushEvent_open h hs.accounted (hs.opened hrun) hphase
    exact .of_running (pushEvent_running h hrun) hacc hopen
      (unaccepted_of_essence he hs.unaccepted)
  report status _ _ _ hrun hstatus := by
    refine .of_edit hrun ?_ rfl ⟨rfl, rfl, rfl⟩ id
    rcases hstatus with rfl | rfl
    · exact hrun
    · rfl
  leave _ hrun := .of_edit hrun hrun rfl ⟨rfl, rfl, rfl⟩ fun _ hp => absurd rfl hp
  terminate {r r' status result error reason _ _ _} hrun hstatus hphase _ h := by
    have he := pushEvent_essence h
    have hid : r'.operation.operationId = r.operation.operationId :=
      congrArg (·.operation.operationId) he
    refine .of_running hrun hid fun hs => ?_
    have hstatus' : r'.operation.status = status := congrArg (·.operation.status) he
    have hpending' : r'.pendingModuleName = none := congrArg (·.pendingModuleName) he
    obtain ⟨hacc, hc⟩ := pushEvent_terminal h
      (hs.accounted.same ⟨rfl, rfl, rfl⟩) (hs.opened hrun) hphase
    refine ⟨hacc, fun hf => ?_, fun _ => hc, fun _ => ⟨?_, hpending'⟩, fun hp => ?_⟩
    · rw [hstatus', hstatus] at hf
      cases hf
    · exact congrArg (·.restartRequest) he
    · exact absurd hpending' hp

/-- Once the operation is over, evidence is not kept. -/
theorem advances_evidence (h : pushEvent clock r phase message progress result error = .ok r')
    (hover : r.operation.status.isTerminal = true) (hphase : phase.eventClass = .evidence) :
    Advances r r' := by
  have he := pushEvent_essence h
  have hfrozen (hs : Sound r) : Frozen r r' :=
    .of_essence he (pushEvent_stale h hover (hs.closed hover) hphase).events (hs.released hover)
  refine ⟨congrArg (·.operation.operationId) he, fun hs => ?_, fun hs _ => hfrozen hs⟩
  have hsame := pushEvent_stale h hover (hs.closed hover) hphase
  refine ⟨hs.accounted.same hsame, fun hf => ?_, fun _ => hsame.events ▸ hs.closed hover,
    fun _ => ⟨(hfrozen hs).restartRequest, (hfrozen hs).pendingModuleName⟩,
    unaccepted_of_essence he hs.unaccepted⟩
  rw [(hfrozen hs).status, hover] at hf
  cases hf

theorem terminalize_essence {status : OperationStatus} {reason : TerminalReason}
    {terminalProgress : TerminalProgress} {u : Unit}
    (h : terminalize clock status result error reason phase message terminalProgress r = .ok u r') :
    r'.essence = (r.terminated status result error reason).essence := by
  simp only [terminalize, bind_ok_iff, get_eq_ok, set_eq_ok, push_eq_ok] at h
  obtain ⟨_, _, ⟨rfl, rfl⟩, _, _, rfl, h⟩ := h
  exact pushEvent_essence h

end Functions

/-! ### Runs -/

/-- **Every change of a record advances it.** -/
theorem advances_upheld :
    Upheld (fun _ _ => True) (Advances : _ → RuntimeOperationRecord ext → Prop) := by
  refine .of_edits (fun _ => keptByEdits_advances) ?_ ?_ (fun hphase hover h =>
    advances_evidence h hover hphase) ?_ ?_
  · exact fun r _ hrun _ _ => .of_edit hrun rfl rfl ⟨rfl, rfl, rfl⟩ id
  · exact fun r _ hrun _ => .of_edit hrun (accepted_running _ _) rfl
      ⟨rfl, rfl, rfl⟩ fun _ hp => absurd rfl hp
  · intro r _
    unfold RuntimeOperationRecord.purged
    split
    · exact ⟨rfl, fun hs => ⟨hs.accounted.same ⟨rfl, rfl, rfl⟩, hs.opened, hs.closed,
        hs.released, hs.unaccepted⟩, fun hs ht => ⟨rfl, rfl, rfl, rfl, rfl, (hs.released ht).1,
        (hs.released ht).2, .inl rfl, .inr ⟨rfl, rfl⟩, id, fun _ => rfl, rfl⟩⟩
    · exact ⟨rfl, fun hs => ⟨hs.accounted.same ⟨rfl, rfl, rfl⟩, hs.opened, hs.closed,
        hs.released, hs.unaccepted⟩, fun hs ht => ⟨rfl, rfl, rfl, rfl, rfl, (hs.released ht).1,
        (hs.released ht).2, .inr ⟨rfl, rfl⟩, .inl rfl, fun _ => rfl, id, rfl⟩⟩
  · intro _ _ _ _
    exact ⟨rfl, fun hs => ⟨hs.accounted.same ⟨rfl, rfl, rfl⟩, hs.opened, hs.closed,
      fun ht => ⟨rfl, (hs.released ht).2⟩, hs.unaccepted⟩,
      fun hs ht => ⟨rfl, rfl, rfl, rfl, rfl, rfl, (hs.released ht).2, .inl rfl, .inl rfl, id, id,
        rfl⟩⟩

/-- The record of an operation that begins is sound. -/
theorem running_sound (op : Text) (req : RuntimeOperationRequest ext) (now : ℕ) :
    Sound (runningRuntimeOperationRecord op req now) where
  accounted := ⟨rfl, fun _ h => absurd h List.not_mem_nil, Nat.zero_le _, Nat.zero_le _⟩
  opened := fun _ _ h => absurd h List.not_mem_nil
  closed := nofun
  released := nofun
  unaccepted := fun _ => rfl

/-- Whether a call puts an operation of this id into the registry. -/
def RegistryCall.inserts (operationId : Text) : RegistryCall ext → Bool
  | .insert inserted _ _ => inserted = operationId
  | _ => false

/-- Every record of a registry is sound. -/
theorem run_sound (calls : List (Readings ext × RegistryCall ext)) :
    ∀ r ∈ ((initial ext).run calls).records, Sound r := by
  intro r' hm
  have he : StateEvolves Advances Sound (initial ext) _ :=
    run_evolves advances_upheld _ calls fun call _ => by
      cases call.2 <;> first | exact running_sound _ _ _ | trivial
  obtain ⟨_, hr | hsound, ha⟩ := he r' hm
  · exact absurd hr Table.not_mem_empty
  · exact ha.sound hsound

/-- **An operation and what becomes of it** are related by what every change keeps. -/
theorem run_follows {A : RuntimeOperationRecord ext → RuntimeOperationRecord ext → Prop}
    [Std.Refl A] [IsTrans (RuntimeOperationRecord ext) A] (upheld : Upheld (fun _ _ => True) A)
    (hs : ∀ {r r'}, A r r' → r'.operation.operationId = r.operation.operationId)
    {s : RegistryState ext} {calls : List (Readings ext × RegistryCall ext)} {op : Text}
    (hcall : ∀ call ∈ calls, call.2.inserts op = false)
    {r r' : RuntimeOperationRecord ext}
    (hr : s.records.find? op = some r)
    (hrec' : (s.run calls).records.find? op = some r') : A r r' := by
  have he : StateEvolves A (·.operation.operationId ≠ op) s (s.run calls) := by
    refine run_evolves upheld _ calls fun call hc => ?_
    have hi := hcall call hc
    cases hcase : call.2 with
    | insert =>
      rw [hcase] at hi
      simpa [RegistryCall.inserts, RegistryCall.Permitted, runningRuntimeOperationRecord] using hi
    | _ => trivial
  obtain ⟨hmem', hid'⟩ := Table.find?_eq_some.1 hrec'
  obtain ⟨earlier, hearlier | hne, hkept⟩ := he r' hmem'
  · have heq : some earlier = some r :=
      (Table.find?_eq_some.2 ⟨hearlier, (hs hkept).symm.trans hid'⟩).symm.trans hr
    cases heq
    exact hkept
  · exact absurd ((hs hkept).symm.trans hid') hne

/-- **The first terminal state wins.** When an operation is over after some calls, then whatever is
called afterwards, as long as its record is kept it says the same: how and why it ended, with which
error and after how many bytes. Its request and its module are gone, its result and its
acknowledgement can only be purged, and the last event of its history, and no other, is the one
that ended it. -/
theorem terminal_record_frozen (history calls : List (Readings ext × RegistryCall ext))
    (operationId : Text) (hcalls : ∀ call ∈ calls, call.2.inserts operationId = false)
    {record record' : RuntimeOperationRecord ext}
    (hrecord : ((initial ext).run history).records.find? operationId = some record)
    (hrecord' : (((initial ext).run history).run calls).records.find? operationId = some record')
    (hterminal : record.operation.status.isTerminal = true) :
    Frozen record record' ∧ Closed record'.events := by
  have hadvances : Advances record record' :=
    run_follows advances_upheld Advances.operationId hcalls hrecord hrecord'
  have hsound := run_sound history record (Table.find?_eq_some.1 hrecord).1
  have hfrozen := hadvances.frozen hsound hterminal
  exact ⟨hfrozen, (hadvances.sound hsound).closed (hfrozen.status ▸ hterminal)⟩

/-- An upload that a module completes, and what may come after that. -/
def sampleHistory : List (Readings sampleExternals × RegistryCall sampleExternals) :=
  [.insert "upload".toList sampleRequest 1000, .transition "upload".toList .started,
    .transition "upload".toList (.resolved (.accepted sampleAcceptance)),
    .ingestModuleEvent (sampleEvent "storageUploadProgress" 10),
    .ingestModuleEvent (sampleEvent "storageUploadDone" 20)].map fun call => (sampleReadings, call)

def sampleAfterwards : List (Readings sampleExternals × RegistryCall sampleExternals) :=
  [.ingestModuleEvent (sampleEvent "storageUploadProgress" 30), .inspect,
    .transition "upload".toList (.timedOut "timeout".toList)].map fun call => (sampleReadings, call)

theorem terminal_record_frozen_sample : ∃ record record' : RuntimeOperationRecord sampleExternals,
      ((initial sampleExternals).run sampleHistory).records.find?
        "upload".toList = some record ∧
      record.operation.status = .completed ∧ record.operation.bytesWritten = 20 ∧
      Frozen record record' := by
  have hsome : (((initial sampleExternals).run sampleHistory).records.find?
      "upload".toList).any (fun record => record.operation.status = .completed ∧
        record.operation.bytesWritten = 20) = true := by decide +kernel
  have hsome' : ((((initial sampleExternals).run sampleHistory).run
      sampleAfterwards).records.find? "upload".toList).isSome = true := by decide +kernel
  obtain ⟨record, hrecord, hstatus⟩ := (Option.any_eq_true _ _).1 hsome
  obtain ⟨record', hrecord'⟩ := Option.isSome_iff_exists.1 hsome'
  simp only [decide_eq_true_eq] at hstatus
  refine ⟨record, record', hrecord, hstatus.1, hstatus.2, ?_⟩
  exact (terminal_record_frozen sampleHistory sampleAfterwards "upload".toList (by decide) hrecord
    hrecord' (by rw [hstatus.1]; rfl)).1

end Terminal

end LogosInspector.Operations
