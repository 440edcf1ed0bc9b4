import LogosInspector.Operations.Chronicle
import LogosInspector.Operations.Outcome

/-!
# What an operation keeps

An operation has an id and may belong to an exclusive group, from the start. Once a module has
accepted it, it has a contract and the ids that the module knows it by. This is its *charter*
(`RuntimeOperation.charter`): what happens to the operation later, other than another acceptance,
does not change it, and neither does what happens to other operations.
-/

namespace LogosInspector.Operations

open Mutation Table

section Charter

variable {ext : OperationExternals} {clock : WallClock ext} {s : RegistryState ext}
  {op : Text} {change : RuntimeOperationTransition}
  {r r' : RuntimeOperationRecord ext}

/-- Who an operation is, and whom it waits for. -/
structure Charter where
  operationId : Text
  exclusiveGroup : Option OperationExclusiveGroup
  terminalEvent : Option ModuleTerminalEventContract
  moduleSessionId : Option Text
  moduleRequestId : Option Text

def RuntimeOperation.charter (operation : RuntimeOperation ext) : Charter where
  operationId := operation.operationId
  exclusiveGroup := operation.exclusiveGroup
  terminalEvent := operation.terminalEvent
  moduleSessionId := operation.moduleSessionId
  moduleRequestId := operation.moduleRequestId

/-- The charter of an operation that a module has accepted. -/
def Charter.accepted (charter : Charter) (acceptance : ObservableOperationAcceptance) : Charter :=
  { charter with
    terminalEvent := some acceptance.terminalEvent
    moduleSessionId := acceptance.correlation.sessionId
    moduleRequestId := acceptance.correlation.requestId }

def SameCharter (record record' : RuntimeOperationRecord ext) : Prop :=
  record'.operation.charter = record.operation.charter

instance : Std.Refl (α := RuntimeOperationRecord ext) SameCharter := ⟨fun _ => rfl⟩

instance : IsTrans (RuntimeOperationRecord ext) SameCharter := ⟨fun _ _ _ h h' => Eq.trans h' h⟩

theorem SameCharter.of_essence (h : r'.essence = r.essence) : SameCharter r r' := by
  have hc := congrArg (·.operation.charter) h
  exact hc

theorem SameCharter.sameContract (h : SameCharter r r') : SameContract r r' :=
  ⟨congrArg (·.operationId) h, congrArg (·.terminalEvent) h, congrArg (·.moduleSessionId) h,
    congrArg (·.moduleRequestId) h⟩

theorem SameCharter.exclusiveGroup (h : SameCharter r r') :
    r'.operation.exclusiveGroup = r.operation.exclusiveGroup :=
  congrArg (·.exclusiveGroup) h

theorem Purges.sameCharter (h : Purges r r') : SameCharter r r' := by
  have hc := congrArg (·.operation.charter) h.same
  exact hc

/-! ### Changes of a record -/

theorem keptByEdits_sameCharter : KeptByEdits clock SameCharter where
  push _ _ h := .of_essence (pushEvent_essence h)
  report _ _ _ _ _ _ := rfl
  leave _ _ := rfl
  terminate _ _ _ _ h := by
    have hc := congrArg (·.operation.charter) (pushEvent_essence h)
    exact hc

variable {disposition : TransitionDisposition}

/-- **Only an acceptance changes the charter.** -/
theorem applyTransition_sameCharter (hrun : r.operation.status.isTerminal = false)
    (hacc : ∀ acc, change ≠ .resolved (.accepted acc))
    (h : applyTransition clock change r = .ok disposition r') : SameCharter r r' :=
  keptByEdits_sameCharter.of_applyTransition hrun (fun _ _ _ => rfl)
    (fun acc heq => absurd heq (hacc acc)) h

variable {acc : ObservableOperationAcceptance} {records : Records ext}
  {terminalAt terminalExpiresAt : ℕ} {before after final : RegistryState ext}
  {readings : Readings ext}

/-- The id of an operation is where its charter says. -/
theorem Waits.of_accepted {identity : Text} {charter : Charter}
    (h : r.operation.charter = charter.accepted acc)
    (hident : acc.correlation.identityFor acc.terminalEvent.correlation =
      some identity) : Waits acc.terminalEvent identity r := by
  refine ⟨congrArg (·.terminalEvent) h, ?_⟩
  rw [← hident]
  cases acc.terminalEvent.correlation with
  | session => exact congrArg (·.moduleSessionId) h
  | request => exact congrArg (·.moduleRequestId) h

/-- An acceptance gives the operation another one. -/
theorem applyTransition_accepted_charter
    (h : applyTransition clock (.resolved (.accepted acc)) r = .ok disposition r') :
    r'.operation.charter = r.operation.charter.accepted acc := by
  obtain ⟨_, _, hpush⟩ := applyTransition_accepted_eq_ok h
  exact SameCharter.of_essence (pushEvent_essence hpush)

variable {event : ModuleEventEnvelope}

theorem applyDeferredModuleEvent_sameCharter {applied : Bool}
    (h : applyDeferredModuleEvent clock event r = .ok applied r') :
    SameCharter r r' := by
  replace h := restoring_eq_ok.1 h
  simp only [get_bind] at h
  have hp {phase : EventPhase} {msg : String} {answer : Bool} (h : (do
        push clock phase msg none (some (event.result ext)) event.error
        pure answer : Mutation (RuntimeOperationRecord ext) Bool) r = .ok applied r') :
      SameCharter r r' := by
    simp only [bind_ok_iff, pure_ok_iff, push_eq_ok] at h
    obtain ⟨_, _, hpush, -, rfl⟩ := h
    exact .of_essence (pushEvent_essence hpush)
  cases hc : r.operation.terminalEvent with rw [hc] at h
  | none => exact hp h
  | some _ =>
    dsimp only at h
    split_ifs at h with _ hrun
    · exact hp h
    · exact hp h
    · simp only [bind_ok_iff, pure_ok_iff] at h
      obtain ⟨_, _, happly, -, rfl⟩ := h
      exact keptByEdits_sameCharter.of_applyCorrelatedModuleEvent (by simpa using hrun) happly

theorem replayFate_sameCharter {pending : PendingModuleEvent} {fate : EventFate}
    (h : replayFate clock op pending r = .ok fate r') :
    SameCharter r r' := by
  rcases replayFate_eq_ok h with ⟨-, -, rfl⟩ | ⟨_, -, ha, -⟩
  · exact Std.Refl.refl _
  · exact applyDeferredModuleEvent_sameCharter ha

theorem replayFates_sameCharter {events : List PendingModuleEvent} {fates : List EventFate}
    (h : replayFates clock op events r = .ok fates r') :
    SameCharter r r' := by
  induction events generalizing r fates with
  | nil =>
    obtain ⟨-, rfl⟩ := pure_ok_iff.1 h
    exact Std.Refl.refl _
  | cons _ _ ih =>
    simp only [replayFates, bind_ok_iff, pure_ok_iff] at h
    obtain ⟨_, _, hfate, _, _, hfates, -, rfl⟩ := h
    exact Trans.trans (replayFate_sameCharter hfate) (ih hfates)

/-! ### Changes of the registry -/

/-- What a transition does to the charter of its operation. -/
theorem TransitionApplies.charter (h : TransitionApplies clock records op change r r' disposition) :
    SameCharter r r' ∨ ∃ acc, change = .resolved (.accepted acc) ∧
        acceptedCorrelationProblem records op acc.correlation acc.terminalEvent = none ∧
        r'.operation.charter = r.operation.charter.accepted acc := by
  cases h with
  | stale _ hpush => exact .inl (.of_essence (pushEvent_essence hpush))
  | rejected hrun _ hr =>
    exact .inl (keptByEdits_sameCharter.of_rejectAcceptance hrun hr)
  | applied hrun hprob happly =>
    by_cases hacc : ∃ acc, change = .resolved (.accepted acc)
    · obtain ⟨acc, rfl⟩ := hacc
      exact .inr ⟨acc, rfl, hprob, applyTransition_accepted_charter happly⟩
    · simp only [not_exists] at hacc
      exact .inl (applyTransition_sameCharter hrun hacc happly)

/-- The record of an operation whose end may have been noted, and its payloads purged. -/
structure Settles (record record' : RuntimeOperationRecord ext) : Prop where
  charter : SameCharter record record'
  status : record'.operation.status = record.operation.status

theorem Purges.settles (h : Purges r r') : Settles r r' :=
  ⟨h.sameCharter, h.status⟩

/-- Noting the end of an operation touches no other, and not who it is. -/
theorem mem_track (h : r' ∈ (trackNewlyTerminalRecord op terminalAt terminalExpiresAt s).records) :
    (r' ∈ s.records) ∨ ∃ r ∈ s.records, r.operation.operationId = op ∧ Settles r r' := by
  unfold trackNewlyTerminalRecord at h
  split at h
  · exact .inl h
  · next r hf =>
    split_ifs at h
    · exact .inl h
    · rcases mem_insert.1 h with rfl | ⟨hm, -⟩
      · obtain ⟨hm, hid⟩ := find?_eq_some.1 hf
        exact .inr ⟨r, hm, hid, rfl, rfl⟩
      · exact .inl hm

/-- What a replay leaves: the other records, and that of the operation with its charter. -/
theorem Replays.origin {replayed : Option Text}
    {r₁ : RuntimeOperationRecord ext} (h : Replays clock op before replayed after)
    (hf : before.records.find? op = some r₁) (hm : r' ∈ after.records) :
    (r' ∈ before.records ∧ r'.operation.operationId ≠ op) ∨
      (r'.operation.operationId = op ∧ SameCharter r₁ r') := by
  obtain ⟨hmem₁, hid₁⟩ := find?_eq_some.1 hf
  have hb (hm : r' ∈ before.records) : (r' ∈ before.records ∧ r'.operation.operationId ≠ op) ∨
        (r'.operation.operationId = op ∧ SameCharter r₁ r') := by
    by_cases hid : r'.operation.operationId = op
    · obtain rfl := eq_of_key_eq hm hmem₁ (hid.trans hid₁.symm)
      exact .inr ⟨hid, Std.Refl.refl _⟩
    · exact .inl ⟨hm, hid⟩
  cases h with
  | nothing => exact hb hm
  | journal hfound hr =>
    rw [hf] at hfound
    obtain rfl := Option.some.inj hfound
    have hc := replayFates_sameCharter hr
    rcases mem_insert.1 hm with rfl | ⟨hm, -⟩
    · exact .inr ⟨(congrArg (·.operationId) hc).trans hid₁, hc⟩
    · exact hb hm

/-- **Where the records come from after a transition**, once the registry has been swept: the others
are swept again, and that of the operation itself has its charter, unless a module has accepted
it. -/
theorem transition_origin (h : JournalsSound s)
    (hok : transition readings op change s = .ok disposition final) :
    ∃ swept, Swept s swept ∧ ∀ r' ∈ final.records, ∃ r ∈ swept.records,
      r.operation.operationId = r'.operation.operationId ∧
      (r.operation.operationId ≠ op → Purges r r') ∧
      (SameCharter r r' ∨ ∃ acc, r.operation.operationId = op ∧ change = .resolved (.accepted acc) ∧
        acceptedCorrelationProblem swept.records op acc.correlation acc.terminalEvent = none ∧
        r'.operation.charter = r.operation.charter.accepted acc) := by
  rcases transition_result readings op change h with
    ⟨_, heq⟩ | ⟨swept, -, hsw, ⟨_, _, heq, hs⟩ | ⟨-, heq⟩ |
      ⟨found, r₁, _, middle, expiry, _, hf, hap, hr, heq, hfin⟩⟩
  all_goals rw [heq] at hok; cases hok
  · exact ⟨final, hsw, fun r hm =>
      ⟨r, hm, rfl, fun _ => .refl r, .inl (Std.Refl.refl r)⟩⟩
  · refine ⟨swept, hsw, fun r' hm => ?_⟩
    -- back through the last sweep, the noting of the end and the replay
    obtain ⟨tracked, ht, hpurge⟩ := hfin.origin r' hm
    obtain ⟨hmem, hidF⟩ := find?_eq_some.1 hf
    obtain ⟨replayed, hreplayed, hset, hs⟩ : ∃ replayed ∈ middle.records,
        Settles replayed tracked ∧ (replayed.operation.operationId ≠ op → replayed = tracked) := by
      rcases mem_track ht with hkept | ⟨replayed, hreplayed, hid, hset⟩
      · exact ⟨tracked, hkept, ⟨rfl, rfl⟩, fun _ => rfl⟩
      · exact ⟨replayed, hreplayed, hset, fun hne => absurd hid hne⟩
    have hc : SameCharter replayed r' :=
      Trans.trans hset.charter hpurge.sameCharter
    rcases hr.origin (find?_insert_changed hf hap.changed) hreplayed with
      ⟨ho, hne⟩ | ⟨_, hsame₁⟩
    · obtain rfl := hs hne
      rcases mem_insert.1 ho with rfl | ⟨ho, -⟩
      · exact absurd (hap.changed.operationId.trans hidF) hne
      · exact ⟨replayed, ho, hpurge.operationId.symm, fun _ => hpurge, .inl hc⟩
    · have hc : SameCharter r₁ r' := Trans.trans hsame₁ hc
      have hid' : r'.operation.operationId = op :=
        (congrArg (·.operationId) hc).trans (hap.changed.operationId.trans hidF)
      refine ⟨found, hmem, hidF.trans hid'.symm, fun hne => absurd hidF hne, ?_⟩
      rcases hap.charter with hs | ⟨acc, rfl, hprob, hacc⟩
      · exact .inl (Trans.trans hs hc)
      · refine .inr ⟨acc, hidF, rfl, hprob, ?_⟩
        rw [show r'.operation.charter = r₁.operation.charter from hc, hacc]

/-- **Records that keep their charters.** Those of the operations that are not touched have at most
been purged. -/
def Descends (touched : Text → Prop) (before after : Records ext) : Prop :=
  ∀ record' ∈ after, ∃ record ∈ before, SameCharter record record' ∧
    (¬touched record.operation.operationId → Purges record record')

variable {touched : Text → Prop}

theorem Descends.trans {a b c : Records ext} (h : Descends touched a b)
    (h' : Descends touched b c) : Descends touched a c := by
  intro last hlast
  obtain ⟨middle, hmid, hc', hpurge'⟩ := h' last hlast
  obtain ⟨first, hfirst, hc, hpurge⟩ := h middle hmid
  refine ⟨first, hfirst, Trans.trans hc hc', fun hu => ?_⟩
  refine (hpurge hu).trans (hpurge' ?_)
  rwa [(hpurge hu).operationId]

theorem Descends.refl (touched : Text → Prop) (records : Records ext) :
    Descends touched records records :=
  fun r hm => ⟨r, hm, Std.Refl.refl _, fun _ => .refl r⟩

theorem Swept.descends (h : Swept before after)
    (touched : Text → Prop) : Descends touched before.records after.records := by
  intro r' hm
  obtain ⟨r, hr, hpurge⟩ := h.origin r' hm
  exact ⟨r, hr, hpurge.sameCharter, fun _ => hpurge⟩

theorem descends_insert (hm : r ∈ records)
    (hc : SameCharter r r') (ht : touched r.operation.operationId) :
    Descends touched records (records.insert r') := by
  intro other ho
  rcases mem_insert.1 ho with rfl | ⟨ho, -⟩
  · exact ⟨r, hm, hc, fun hun => absurd ht hun⟩
  · exact Descends.refl touched records other ho

theorem descends_track (ht : touched op) : Descends touched s.records
      (trackNewlyTerminalRecord op terminalAt terminalExpiresAt s).records := by
  intro r' hm
  rcases mem_track hm with hkept | ⟨r, hr, rfl, hset⟩
  · exact Descends.refl touched _ r' hkept
  · exact ⟨r, hr, hset.charter, fun hun => absurd ht hun⟩

theorem Evidenced.descends {evidence : Text → List ModuleEvidence} {before after : Records ext}
    (h : Evidenced clock evidence before after) (ht : ∀ id, touched id) :
    Descends touched before after := by
  intro r' hm
  rcases h r'.operation.operationId with ⟨-, hn⟩ | ⟨r, _, hr, ho, hpush⟩
  · rw [find?_of_mem hm] at hn
    cases hn
  · rw [find?_of_mem hm] at ho
    obtain rfl := Option.some.inj ho
    exact ⟨r, (find?_eq_some.1 hr).1, .of_essence (pushEvidence_essence hpush),
      fun hun => absurd (ht _) hun⟩

/-- The operations that a module event may have touched: the one that it was applied to, if it
was. -/
def ModuleEventIngressResult.Touches (result : ModuleEventIngressResult) (operationId : Text) :
    Prop :=
  ∀ applied, result = .applied applied → operationId = applied

theorem IngressApplies.descends {records' : Records ext}
    {ingress : ModuleEventIngressResult} (h : IngressApplies clock event records ingress records') :
    Descends ingress.Touches records records' := by
  cases h with
  | unclaimed => exact .refl _ _
  | ambiguous => exact .refl _ _
  | stale hone _ hpush =>
    refine descends_insert (mem_of_correlatedRecords hone).1
      (.of_essence (pushEvent_essence hpush)) ?_
    intro applied hfalse
    cases hfalse
  | applied hone hrun happly =>
    refine descends_insert (mem_of_correlatedRecords hone).1
      (keptByEdits_sameCharter.of_applyCorrelatedModuleEvent hrun happly) ?_
    intro _ heq
    cases heq
    rfl

/-- **Where the records come from after a module event**: no charter changes, and if it was applied
to an operation the others have only been swept. -/
theorem ingest_descends (h : RegistrySound s)
    {result : ModuleEventIngressResult} {settled : Option Text}
    (hok : ingestModuleEventWithSettlement readings event s = .ok (result, settled) final) :
    Descends result.Touches s.records final.records := by
  rcases ingest_result readings event h with
    ⟨_, heq⟩ | ⟨_, -, hsw, ⟨_, _, heq, _⟩ |
      ⟨ingress, records, _, middle, expiry, _, _, hap, hd, -, heq, hfin⟩⟩
  all_goals rw [heq] at hok; cases hok
  refine (hsw.descends _).trans (.trans ?_ (hfin.descends _))
  refine Descends.trans (b := middle.records) ?_ ?_
  · cases hd with
    | settled => exact hap.descends
    | deferred hu _ hdef =>
      obtain rfl := hap.records_eq hu
      refine hdef.records.descends fun _ applied hfalse => ?_
      cases hfalse
  · cases hid : result.operationId with
    | none => exact .refl _ _
    | some _ =>
      refine descends_track fun _ heq => ?_
      subst heq
      exact (Option.some.inj hid).symm

end Charter

end LogosInspector.Operations
