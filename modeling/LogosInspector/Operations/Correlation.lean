import LogosInspector.Operations.Charter

/-!
# A module event settles only its own operation

A module knows an operation by an id, which its acceptance carries. That no two operations have the
same id is checked once, when one of them is accepted, against the records that are kept then
(`Correlated`, `run_correlated`). It follows that of the operations that wait for events of a
module by one kind of ids, at most one is waiting for a given event, and that an event is applied,
when it arrives or when it is replayed, to the operation whose acceptance carried its id.
-/

namespace LogosInspector.Operations

open Mutation List Table
open RegistryState (initial)

section Correlation

variable {ext : OperationExternals} {clock : WallClock ext} {s : RegistryState ext}
  {op : Text} {acc : ObservableOperationAcceptance}
  {r r' : RuntimeOperationRecord ext}

/-- **Operations that modules can tell apart**: each that has been accepted has an id, and no two
have the same id of one kind for one module. -/
structure Correlated (records : Records ext) : Prop where
  identified : ∀ record ∈ records, ∀ contract, record.operation.terminalEvent = some contract →
    ∃ identity, Waits contract identity record
  distinct : ∀ record ∈ records, ∀ other ∈ records, ∀ contract otherContract,
    record.operation.terminalEvent = some contract →
    other.operation.terminalEvent = some otherContract →
    contract.module = otherContract.module → contract.correlation = otherContract.correlation →
    operationCorrelationValue record.operation contract.correlation =
      operationCorrelationValue other.operation otherContract.correlation →
    record = other

/-- Charters that are kept. What is new has not been accepted. -/
def Carried (before after : Records ext) : Prop :=
  ∀ record' ∈ after, (∃ record ∈ before, SameCharter record record') ∨
    record'.operation.terminalEvent = none

variable {before : Records ext} {after : RegistryState ext} {readings : Readings ext}
  {moduleName : Text}

/-- Whatever keeps the charters keeps the operations apart. -/
theorem Correlated.carried {after : Records ext} (h : Correlated before)
    (horigin : Carried before after) : Correlated after := by
  have hfrom {r' : RuntimeOperationRecord ext} (hm : r' ∈ after)
      {contract : ModuleTerminalEventContract}
      (hc : r'.operation.terminalEvent = some contract) :
      ∃ r ∈ before, SameContract r r' ∧ r.operation.terminalEvent = some contract := by
    rcases horigin r' hm with ⟨r, hr, hcharter⟩ | hn
    · exact ⟨r, hr, hcharter.sameContract, hcharter.sameContract.terminalEvent.symm.trans hc⟩
    · rw [hn] at hc
      cases hc
  constructor
  · intro _ hm contract hc
    obtain ⟨r, hr, hs, hc⟩ := hfrom hm hc
    obtain ⟨identity, hwait⟩ := h.identified r hr contract hc
    exact ⟨identity, hwait.same hs⟩
  · intro _ hfirst' _ hsecond' contract otherContract hc ho hmod hk hval
    obtain ⟨first, hfirst, hs, hc⟩ := hfrom hfirst' hc
    obtain ⟨second, hsecond, hsame', ho⟩ := hfrom hsecond' ho
    rw [hs.correlationValue, hsame'.correlationValue] at hval
    obtain rfl := h.distinct first hfirst second hsecond contract otherContract hc ho hmod hk hval
    exact eq_of_key_eq hfirst' hsecond' (hs.operationId.trans hsame'.operationId.symm)

/-- Records of which one has been accepted, and the others keep their charters. -/
def Accepts (operationId : Text) (acceptance : ObservableOperationAcceptance)
    (before after : Records ext) : Prop :=
  ∀ record' ∈ after, ∃ record ∈ before,
    record.operation.operationId = record'.operation.operationId ∧
    ((record.operation.operationId ≠ operationId ∧ SameCharter record record') ∨
      (record.operation.operationId = operationId ∧
        record'.operation.charter = record.operation.charter.accepted acceptance))

/-- **An acceptance keeps the operations apart**, since another operation with the id would have
been found. -/
theorem Correlated.accepted {after : Records ext} (h : Correlated before)
    (hprob : acceptedCorrelationProblem before op acc.correlation acc.terminalEvent = none)
    (horigin : Accepts op acc before after) : Correlated after := by
  obtain ⟨identity, hident, hd⟩ := acceptedCorrelationProblem_eq_none hprob
  constructor
  · intro r' hm contract hc
    obtain ⟨r, hr, -, ⟨-, hcharter⟩ | ⟨-, hcharter⟩⟩ := horigin r' hm
    · obtain ⟨identity, hwait⟩ := h.identified r hr contract
        (hcharter.sameContract.terminalEvent.symm.trans hc)
      exact ⟨identity, hwait.same hcharter.sameContract⟩
    · have hwait := Waits.of_accepted hcharter hident
      obtain rfl := Option.some.inj (hwait.terminalEvent.symm.trans hc)
      exact ⟨identity, hwait⟩
  · -- the accepted operation differs from any other
    have hnew {new other : RuntimeOperationRecord ext} (hnew : new ∈ before) (ho : other ∈ before)
        {new' other' : RuntimeOperationRecord ext}
        {contract otherContract : ModuleTerminalEventContract}
        (hne : other.operation.operationId ≠ op) (hs : SameCharter other other')
        (hacc : new'.operation.charter = new.operation.charter.accepted acc)
        (hc : new'.operation.terminalEvent = some contract)
        (hotherContract : other'.operation.terminalEvent = some otherContract)
        (hmod : contract.module = otherContract.module)
        (hk : contract.correlation = otherContract.correlation)
        (hval : operationCorrelationValue new'.operation contract.correlation =
          operationCorrelationValue other'.operation otherContract.correlation) : False := by
      have hwait := Waits.of_accepted hacc hident
      obtain rfl := Option.some.inj (hwait.terminalEvent.symm.trans hc)
      refine hd other ho hne otherContract
        (hs.sameContract.terminalEvent.symm.trans hotherContract) hmod.symm hk.symm ?_
      rw [← hs.sameContract.correlationValue, ← hval, hwait.identity]
    intro first' hf' second' hsecond' contract otherContract hc ho hmod hk hval
    obtain ⟨first, hf, hid, ⟨hne, hs⟩ | ⟨hown, hacc⟩⟩ := horigin first' hf' <;>
      obtain ⟨second, hsecond, hid', ⟨hne', hsame'⟩ | ⟨hown', hacc'⟩⟩ := horigin second' hsecond'
    · rw [hs.sameContract.correlationValue, hsame'.sameContract.correlationValue] at hval
      obtain rfl := h.distinct first hf second hsecond contract otherContract
        (hs.sameContract.terminalEvent.symm.trans hc)
        (hsame'.sameContract.terminalEvent.symm.trans ho) hmod hk hval
      exact eq_of_key_eq hf' hsecond' (hid.symm.trans hid')
    · exact (hnew hsecond hf hne hs hacc' ho hc hmod.symm hk.symm hval.symm).elim
    · exact (hnew hf hsecond hne' hsame' hacc hc ho hmod hk hval).elim
    · exact eq_of_key_eq hf' hsecond' (hid.symm.trans (hown.trans (hown'.symm.trans hid')))

/-! ### Calls -/

theorem Descends.carried {touched : Text → Prop} {after : Records ext}
    (h : Descends touched before after) : Carried before after := by
  intro r' hm
  obtain ⟨r, hr, hc, -⟩ := h r' hm
  exact .inl ⟨r, hr, hc⟩

theorem Carried.trans {a b c : Records ext} (h : Carried a b) (h' : Carried b c) : Carried a c := by
  intro last hlast
  rcases h' last hlast with ⟨middle, hmid, hc'⟩ | hn
  · rcases h middle hmid with ⟨first, hfirst, hc⟩ | hn
    · exact .inl ⟨first, hfirst, Trans.trans hc hc'⟩
    · exact .inr (hc'.sameContract.terminalEvent.trans hn)
  · exact .inr hn

theorem Swept.carried {before : RegistryState ext} (h : Swept before after) :
    Carried before.records after.records :=
  (h.descends fun _ => True).carried

theorem carried_track (s : RegistryState ext) (op : Text)
    (terminalAt terminalExpiresAt : ℕ) : Carried s.records
      (trackNewlyTerminalRecord op terminalAt terminalExpiresAt s).records := by
  have hd : Descends (fun _ => True) s.records
      (trackNewlyTerminalRecord op terminalAt terminalExpiresAt s).records :=
    descends_track trivial
  exact hd.carried

theorem carried_insert (records : Records ext) (hnew : r.operation.terminalEvent = none) :
    Carried records (records.insert r) := by
  intro r' hm
  rcases mem_insert.1 hm with rfl | ⟨hm, -⟩
  · exact .inr hnew
  · exact .inl ⟨r', hm, Std.Refl.refl _⟩

theorem OnlySwept.carried {before : RegistryState ext}
    (h : OnlySwept readings before after) : Carried before.records after.records := by
  rcases h with hs | ⟨_, -, hsw, hs⟩
  · exact hs.swept.carried
  · exact hsw.carried.trans hs.swept.carried

/-- A transition keeps the charters, or it is an acceptance. -/
theorem transition_charters (hsound : JournalsSound s)
    {change : RuntimeOperationTransition} {disposition : TransitionDisposition}
    {final : RegistryState ext}
    (hok : transition readings op change s = .ok disposition final) :
    Carried s.records final.records ∨ ∃ swept acc, Swept s swept ∧
      change = .resolved (.accepted acc) ∧
      acceptedCorrelationProblem swept.records op acc.correlation acc.terminalEvent = none ∧
      Accepts op acc swept.records final.records := by
  obtain ⟨swept, hsw, ho⟩ := transition_origin hsound hok
  by_cases hkept : ∀ r' ∈ final.records, ∃ r ∈ swept.records, SameCharter r r'
  · exact .inl (hsw.carried.trans fun r' hm => .inl (hkept r' hm))
  · -- the operation has been accepted, and the other records have only been swept
    push Not at hkept
    obtain ⟨own', hown', hch⟩ := hkept
    obtain ⟨own, hown, hid, -, hs | ⟨acc, hself, rfl, hprob, hacc⟩⟩ :=
      ho own' hown'
    · exact absurd hs (hch own hown)
    · refine .inr ⟨swept, acc, hsw, rfl, hprob, fun r' hm => ?_⟩
      obtain ⟨r, hr, hid', hpurge, -⟩ := ho r' hm
      by_cases hne : r.operation.operationId = op
      · obtain rfl := eq_of_key_eq hr hown (hne.trans hself.symm)
        obtain rfl := eq_of_key_eq hm hown' (hid'.symm.trans hid)
        exact ⟨r, hr, hid', .inr ⟨hself, hacc⟩⟩
      · exact ⟨r, hr, hid', .inl ⟨hne, (hpurge hne).sameCharter⟩⟩

/-- **Whatever is called keeps the charters, or is an acceptance.** -/
theorem perform_charters (hs : RegistrySound s) (readings : Readings ext)
    (call : RegistryCall ext) :
    Carried s.records (Mutation.left (call.perform readings s)).records ∨
      ∃ op acc swept, Swept s swept ∧ call = .transition op (.resolved (.accepted acc)) ∧
        acceptedCorrelationProblem swept.records op acc.correlation acc.terminalEvent = none ∧
        Accepts op acc swept.records (Mutation.left (call.perform readings s)).records := by
  cases call with
  | insert op req now =>
    change Carried _ (Mutation.left (Operations.insert readings _ s)).records ∨ _
    left
    rcases insert_result readings (runningRuntimeOperationRecord op req now) hs.journals with
      ⟨e, heq⟩ | ⟨swept, -, hsw, ⟨e, heq⟩ | ⟨expiry, final, -, -, heq, hfin⟩⟩
    all_goals rw [heq]
    · exact (Swept.refl s).carried
    · exact hsw.carried
    · have hi : Carried swept.records (swept.records.insert
          (runningRuntimeOperationRecord op req now)) := carried_insert _ rfl
      exact hsw.carried.trans (hi.trans ((carried_track _ _ _ _).trans hfin.carried))
  | transition op change =>
    rw [left_transition]
    cases hres : Operations.transition readings op change s with
    | ok _ _ =>
      refine (transition_charters hs.journals hres).imp_right ?_
      rintro ⟨swept, acc, hsw, rfl, hprob, hacc⟩
      exact ⟨op, acc, swept, hsw, rfl, hprob, hacc⟩
    | error _ _ => exact .inl (transition_error hs hres).carried
  | ingestModuleEvent event =>
    rw [left_ingest]
    cases hres : ingestModuleEventWithSettlement readings event s with
    | ok _ _ => exact .inl (ingest_descends hs hres).carried
    | error _ _ => exact .inl (ingest_error hs hres).carried
  | inspect =>
    obtain ⟨_, hsweep, hsw, -⟩ := hs.sweep readings.now readings.monotonicNow
    rw [left_inspect, inspect, bind_of_ok hsweep]
    exact .inl hsw.carried
  | remove op =>
    obtain ⟨removed, hok, hrec, -⟩ := removeRecord_result hs.journals op
    have heq : (RegistryCall.remove op).perform readings s = .ok () removed := hok
    rw [heq, left_ok, hrec]
    exact .inl fun r' hm => .inl ⟨r', (mem_erase.1 hm).1, Std.Refl.refl _⟩

/-- **After any calls the operations can be told apart.** -/
theorem run_correlated (calls : List (Readings ext × RegistryCall ext)) :
    Correlated ((initial ext).run calls).records := by
  induction calls using List.reverseRecOn with
  | nil => exact ⟨fun _ hm => absurd hm not_mem_empty,
      fun _ hm => absurd hm not_mem_empty⟩
  | append_singleton calls last ih =>
    obtain ⟨readings, call⟩ := last
    rw [run_append_one]
    rcases perform_charters (run_registrySound calls) readings call with
      hcar | ⟨_, _, _, hsw, -, hprob, hacc⟩
    · exact ih.carried hcar
    · exact (ih.carried hsw.carried).accepted hprob hacc

/-! ### Acceptances -/

/-- A module has accepted an operation in one of some calls, and this is what the operation waits
for. -/
def AcceptedBy (calls : List (Readings ext × RegistryCall ext))
    (record : RuntimeOperationRecord ext) (acceptance : ObservableOperationAcceptance) : Prop :=
  (∃ readings, (readings, .transition record.operation.operationId
    (.resolved (.accepted acceptance))) ∈ calls) ∧
  record.operation.charter = record.operation.charter.accepted acceptance

theorem AcceptedBy.same {calls calls' : List (Readings ext × RegistryCall ext)}
    (h : AcceptedBy calls r acc) (hcharter : SameCharter r r')
    (hcall : calls ⊆ calls') : AcceptedBy calls' r' acc := by
  obtain ⟨⟨readings, hc⟩, hacc⟩ := h
  refine ⟨⟨readings, ?_⟩, ?_⟩
  · rw [hcharter.sameContract.operationId]
    exact hcall hc
  · rw [show r'.operation.charter = r.operation.charter from hcharter]
    exact hacc

/-- **Every contract comes from an acceptance.** -/
theorem run_accepted (calls : List (Readings ext × RegistryCall ext)) :
    ∀ r ∈ ((initial ext).run calls).records, ∀ contract,
      r.operation.terminalEvent = some contract → ∃ acc, AcceptedBy calls r acc := by
  induction calls using List.reverseRecOn with
  | nil => exact fun _ hm => absurd hm not_mem_empty
  | append_singleton calls last ih =>
    obtain ⟨readings, call⟩ := last
    rw [run_append_one]
    have hsound := run_registrySound calls
    generalize hstate : (initial ext).run calls = s at *
    intro r' hm contract hc
    have hkept {r : RuntimeOperationRecord ext} (hr : r ∈ s.records) (hcharter : SameCharter r r') :
        ∃ acc, AcceptedBy (calls ++ [(readings, call)]) r' acc := by
      obtain ⟨acc, haccepted⟩ := ih r hr contract (hcharter.sameContract.terminalEvent.symm.trans
        hc)
      exact ⟨acc, haccepted.same hcharter (subset_append_left _ _)⟩
    rcases perform_charters hsound readings call with
      hcar | ⟨_, acc, _, hsw, rfl, -, hacc⟩
    · rcases hcar r' hm with ⟨r, hr, hcharter⟩ | hn
      · exact hkept hr hcharter
      · rw [hn] at hc
        cases hc
    · obtain ⟨r, hr, hid, ⟨-, hcharter⟩ | ⟨rfl, haccepted⟩⟩ := hacc r' hm
      · obtain ⟨_, he, hpurge⟩ := hsw.origin r hr
        exact hkept he (Trans.trans hpurge.sameCharter hcharter)
      · refine ⟨acc, ⟨readings, ?_⟩, ?_⟩
        · rw [hid]
          exact mem_append_right _ mem_cons_self
        · rw [haccepted]
          rfl

/-! ### Events -/

variable {event : ModuleEventEnvelope}

/-- An operation that an event correlates with waits for it. -/
theorem correlatesEvent_eq_true {operation : RuntimeOperation ext}
    (h : correlatesEvent event operation = true) :
    ∃ contract identity, operation.terminalEvent = some contract ∧
      operationCorrelationValue operation contract.correlation = some identity ∧
      Matches contract identity event := by
  obtain ⟨contract, hc, h⟩ := (Option.any_eq_true _ _).1 h
  rw [Bool.and_eq_true] at h
  obtain ⟨hrec, h⟩ := h
  split at h
  · next expected actual he hact =>
    obtain rfl : expected = actual := by simpa using h
    exact ⟨contract, expected, hc, he, hrec, hact⟩
  · cases h

/-- **The contracts of a module use one kind of ids.** -/
def OneKind (records : Records ext) (moduleName : Text) : Prop :=
  ∀ record ∈ records, ∀ other ∈ records, ∀ contract otherContract,
    record.operation.terminalEvent = some contract →
    other.operation.terminalEvent = some otherContract →
    contract.module = moduleName → otherContract.module = moduleName →
    contract.correlation = otherContract.correlation

theorem OneKind.carried {after : Records ext}
    (h : OneKind before moduleName) (hcar : Carried before after) : OneKind after moduleName := by
  intro first' hfirst' second' hsecond' contract otherContract hc ho hmod hmod'
  rcases hcar first' hfirst' with ⟨first, hfirst, hs⟩ | hn
  · rcases hcar second' hsecond' with ⟨second, hsecond, hsame'⟩ | hn
    · exact h first hfirst second hsecond contract otherContract
        (hs.sameContract.terminalEvent.symm.trans hc)
        (hsame'.sameContract.terminalEvent.symm.trans ho) hmod hmod'
    · rw [hn] at ho
      cases ho
  · rw [hn] at hc
    cases hc

/-- Two operations that wait for an event by one kind of ids are the same. -/
theorem Correlated.unique {records : Records ext} (h : Correlated records)
    (hk : OneKind records event.moduleName) {first second : RuntimeOperationRecord ext}
    (hfirst : first ∈ correlatedRecords event records)
    (hsecond : second ∈ correlatedRecords event records) : first = second := by
  obtain ⟨hm, hcorrelates⟩ := List.mem_filter.1 hfirst
  obtain ⟨hmem', hcorrelates'⟩ := List.mem_filter.1 hsecond
  obtain ⟨contract, _, hc, hval, hrec, hident⟩ :=
    correlatesEvent_eq_true hcorrelates
  obtain ⟨contract', _, hcon', hval', hrec', hident'⟩ :=
    correlatesEvent_eq_true hcorrelates'
  have hmod := recognizes_moduleName hrec
  have hmod' := recognizes_moduleName hrec'
  have hs := hk first hm second hmem' contract contract' hc hcon' hmod hmod'
  refine h.distinct first hm second hmem' contract contract' hc hcon' (hmod.trans hmod'.symm) hs ?_
  rw [hval, hval', ← hident, ← hident', hs]

/-- **An event is never ambiguous** if the contracts of its module use one kind of ids. -/
theorem Correlated.not_ambiguous (h : Correlated s.records) (hsound : RegistrySound s)
    (hk : OneKind s.records event.moduleName)
    (operationIds : List Text) (settled : Option Text) (after : RegistryState ext) :
    ingestModuleEventWithSettlement readings event s ≠
      .ok (.ambiguous operationIds, settled) after := by
  intro hok
  rcases ingest_result readings event hsound with
    ⟨_, heq⟩ | ⟨swept, -, hsw, ⟨_, _, heq, hs⟩ |
      ⟨ingress, records, result, middle, expiry, _, _, hap, hd, -, heq, hfin⟩⟩
  all_goals rw [heq] at hok; cases hok
  cases hd
  cases hap with
  | unclaimed _ hres => rcases hres with hfalse | ⟨_, hfalse⟩ <;> cases hfalse
  | @ambiguous first second _ hmany =>
    have hs : first = second := (h.carried hsw.carried).unique (hk.carried hsw.carried)
      (by rw [hmany]; exact mem_cons_self)
      (by rw [hmany]; exact mem_cons_of_mem _ mem_cons_self)
    have hnodup : (correlatedRecords event swept.records).Nodup :=
      (List.Nodup.of_map _ swept.records.nodup_keys).filter _
    rw [hmany, hs] at hnodup
    exact (nodup_cons.1 hnodup).1 mem_cons_self

/-- **The id in an event is the one that an acceptance has carried.** -/
def IsFor (acceptance : ObservableOperationAcceptance) (event : ModuleEventEnvelope) : Prop :=
  ∃ identity, acceptance.correlation.identityFor acceptance.terminalEvent.correlation =
      some identity ∧
    Matches acceptance.terminalEvent identity event

/-- What waits for an event has been accepted with its id. -/
theorem Waits.isFor {identity : Text} (h : Waits acc.terminalEvent identity r)
    (hc : r.operation.charter = r.operation.charter.accepted acc)
    (hm : Matches acc.terminalEvent identity event) : IsFor acc event := by
  refine ⟨identity, ?_, hm⟩
  rw [← h.identity]
  cases acc.terminalEvent.correlation with
  | session => exact (congrArg (·.moduleSessionId) hc).symm
  | request => exact (congrArg (·.moduleRequestId) hc).symm

/-- **An event that is applied when it arrives** is applied to an operation that waits for it, and
the records of the others are at most swept. -/
theorem ingest_applied (hsound : RegistrySound s)
    {settled : Option Text}
    (hok : ingestModuleEventWithSettlement readings event s = .ok (.applied op, settled) after) :
    (∃ r, s.records.find? op = some r ∧ correlatesEvent event r.operation = true) ∧
    ∀ r' ∈ after.records, r'.operation.operationId ≠ op → ∃ r ∈ s.records, Purges r r' := by
  refine ⟨?_, fun r' hm hne => ?_⟩
  · rcases ingest_result readings event hsound with
      ⟨_, heq⟩ | ⟨_, -, hsw, ⟨_, _, heq, _⟩ |
        ⟨ingress, records, result, middle, expiry, _, _, hap, hd, -, heq, hfin⟩⟩
    all_goals rw [heq] at hok; cases hok
    cases hd
    cases hap with
    | unclaimed _ hres => rcases hres with hfalse | ⟨_, hfalse⟩ <;> cases hfalse
    | applied hone hrun =>
      obtain ⟨hm, hc⟩ := mem_of_correlatedRecords hone
      exact ⟨_, (swept_find? hsw hrun).1 (find?_of_mem hm), hc⟩
  · obtain ⟨r, hr, hcharter, hpurge⟩ := ingest_descends hsound hok r' hm
    refine ⟨r, hr, hpurge fun ht => hne ?_⟩
    rw [hcharter.sameContract.operationId]
    exact ht op rfl

/-- A deferred event that is taken for an operation is one that it waits for. -/
theorem applyDeferredModuleEvent_true (h : applyDeferredModuleEvent clock event r = .ok true r') :
    ∃ contract, r.operation.terminalEvent = some contract ∧ contract.recognizes event = true ∧
      operationCorrelationValue r.operation contract.correlation =
        event.correlationValue contract.correlation := by
  replace h := restoring_eq_ok.1 h
  simp only [get_bind] at h
  cases hc : r.operation.terminalEvent with rw [hc] at h
  | none =>
    simp only [bind_ok_iff, pure_ok_iff] at h
    obtain ⟨_, _, -, hfalse, -⟩ := h
    cases hfalse
  | some contract =>
    dsimp only at h
    by_cases ho : contract.recognizes event = false ∨
        operationCorrelationValue r.operation contract.correlation ≠
          event.correlationValue contract.correlation
    · rw [if_pos ho] at h
      simp only [bind_ok_iff, pure_ok_iff] at h
      obtain ⟨_, _, -, hfalse, -⟩ := h
      cases hfalse
    · simp only [not_or, Bool.not_eq_false, not_not] at ho
      exact ⟨contract, rfl, ho⟩

theorem PendingModuleEvent.struck_ne_applied (pending : PendingModuleEvent)
    (op applied : Text) : pending.struck op ≠ .applied applied := by
  unfold PendingModuleEvent.struck
  split_ifs <;> exact nofun

/-- **An event that is applied in a replay** is applied to the operation that the call has accepted,
and whose acceptance has carried the id of the event. -/
theorem JournalStep.accepted {before : RegistryState ext}
    {call : RegistryCall ext} {fates : List EventFate}
    {arrived : List PendingModuleEvent} (hsound : RegistrySound before)
    (h : JournalStep readings before after moduleName call fates arrived)
    {pending : PendingModuleEvent} (hm : (pending, EventFate.applied op) ∈
      (before.pendingModuleEvents.eventsOf moduleName).zip fates) :
    ∃ acc, call = .transition op (.resolved (.accepted acc)) ∧ IsFor acc pending.event := by
  cases h with
  | untouched =>
    obtain ⟨-, hfalse⟩ := mem_zip_map hm
    cases hfalse
  | removed =>
    obtain ⟨-, hfalse⟩ := mem_zip_map hm
    exact absurd hfalse.symm (pending.struck_ne_applied _ _)
  | deferred _ _ hb =>
    rw [hb, zip_append (by simp)] at hm
    rcases mem_append.1 hm with he | hkept
    · obtain ⟨-, hfalse⟩ := mem_zip_map he
      cases hfalse
    · obtain ⟨-, hfalse⟩ := mem_zip_map hkept
      cases hfalse
  | @replayed _ _ _ r _ _ _ _ _ hf hp hap hr =>
    obtain ⟨found, _, hfound, hfate⟩ := replayFates_mem replayFate_sameCharter hr hm
    rcases replayFate_eq_ok hfate with ⟨-, hfalse, -⟩ | ⟨applied, -, ha, hfates⟩
    · cases hfalse
    cases applied with
    | false =>
      exact absurd hfates.symm (pending.struck_ne_applied _ _)
    | true =>
      cases hfates
      obtain ⟨_, hc, hrec, hval⟩ := applyDeferredModuleEvent_true ha
      rcases hap.charter with hs | ⟨acc, rfl, hprob, hacc⟩
      · -- while it waited for the module it had not been accepted
        have hn : r.operation.terminalEvent = none :=
          (hsound.records r (find?_eq_some.1 hf).1).unaccepted (by simp [hp])
        have hcharter : SameCharter r found := Trans.trans hs hfound
        rw [hcharter.sameContract.terminalEvent, hn] at hc
        cases hc
      · obtain ⟨identity, hident, -⟩ := acceptedCorrelationProblem_eq_none hprob
        have hwait : Waits acc.terminalEvent identity found :=
          (Waits.of_accepted hacc hident).same hfound.sameContract
        obtain rfl := Option.some.inj (hwait.terminalEvent.symm.trans hc)
        exact ⟨acc, rfl, identity, hident, hrec, hval.symm.trans hwait.identity⟩

/-- A transition touches no other operation. -/
theorem transition_others (hsound : RegistrySound s) (readings : Readings ext)
    (change : RuntimeOperationTransition)
    (hm : r' ∈ (Mutation.left (transition readings op change s)).records)
    (hne : r'.operation.operationId ≠ op) :
    ∃ r ∈ s.records, Purges r r' := by
  cases hres : transition readings op change s with rw [hres] at hm
  | ok _ _ =>
    obtain ⟨swept, hsw, ho⟩ := transition_origin hsound.journals hres
    obtain ⟨r, hr, hid, hpurge, -⟩ := ho r' hm
    obtain ⟨earlier, he, hpurge'⟩ := hsw.origin r hr
    exact ⟨earlier, he, hpurge'.trans (hpurge (hid ▸ hne))⟩
  | error _ _ =>
    rcases transition_error hsound hres with hs | ⟨_, -, hsw, hs⟩
    · exact hs.swept.origin r' hm
    · exact (hsw.trans hs.swept).origin r' hm

/-- **A module event settles only its own operation.** After any calls:

* no two operations that are kept have the same id, of one kind, for one module;
* if the contracts of a module use one kind of ids, none of its events is ambiguous;
* an event that is applied when it arrives is applied to an operation that waits for it, and that
  was accepted with the id in the event;
* an event that was deferred and has then been applied was applied in the call that has accepted its
  operation, with the id in the event.

Either way, the records of the other operations have at most been swept. -/
theorem module_event_settles_own_operation (calls : List (Readings ext × RegistryCall ext)) :
    (∀ record ∈ ((initial ext).run calls).records,
      ∀ other ∈ ((initial ext).run calls).records, ∀ contract otherContract,
      record.operation.terminalEvent = some contract →
      other.operation.terminalEvent = some otherContract →
      contract.module = otherContract.module → contract.correlation = otherContract.correlation →
      operationCorrelationValue record.operation contract.correlation =
        operationCorrelationValue other.operation otherContract.correlation →
      record = other) ∧
    (∀ readings event, OneKind ((initial ext).run calls).records event.moduleName →
      ∀ operationIds settled after,
        ingestModuleEventWithSettlement readings event ((initial ext).run calls) ≠
          .ok (.ambiguous operationIds, settled) after) ∧
    (∀ readings event operationId settled after,
      ingestModuleEventWithSettlement readings event ((initial ext).run calls) =
        .ok (.applied operationId, settled) after →
      (∃ record acceptance,
        ((initial ext).run calls).records.find? operationId = some record ∧
        AcceptedBy calls record acceptance ∧ IsFor acceptance event) ∧
      ∀ record' ∈ after.records, record'.operation.operationId ≠ operationId →
        ∃ record ∈ ((initial ext).run calls).records, Purges record record') ∧
    (∀ log, Chronicle calls log → ∀ moduleName, ∀ departure ∈ (log moduleName).departed,
      ∀ operationId, departure.fate = .applied operationId →
      (∃ readings acceptance, calls[departure.time]? =
          some (readings, .transition operationId (.resolved (.accepted acceptance))) ∧
        IsFor acceptance departure.pending.event) ∧
      ∀ record' ∈ ((initial ext).run (calls.take (departure.time + 1))).records,
        record'.operation.operationId ≠ operationId →
        ∃ record ∈ ((initial ext).run (calls.take departure.time)).records,
          Purges record record') := by
  have hsound := run_registrySound calls
  have hcorrelated := run_correlated calls
  refine ⟨hcorrelated.distinct, fun readings event hkind => hcorrelated.not_ambiguous hsound hkind,
    ?_, ?_⟩
  · intro readings _ operationId _ _ hok
    obtain ⟨⟨record, hfind, hcorrelates⟩, hothers⟩ := ingest_applied hsound hok
    refine ⟨?_, hothers⟩
    obtain ⟨contract, identity, hcontract, hvalue, hmatches⟩ := correlatesEvent_eq_true hcorrelates
    obtain ⟨acceptance, haccepted⟩ := run_accepted calls record (find?_eq_some.1 hfind).1
      contract hcontract
    have hown : record.operation.terminalEvent = some acceptance.terminalEvent :=
      congrArg (·.terminalEvent) haccepted.2
    obtain rfl := Option.some.inj (hown.symm.trans hcontract)
    have hwaits : Waits acceptance.terminalEvent identity record := ⟨hcontract, hvalue⟩
    exact ⟨record, acceptance, hfind, haccepted, hwaits.isFor haccepted.2 hmatches⟩
  · intro _ hlog _ _ hmem _ hfate
    obtain ⟨readings, _, _, _, hcall, hstep, hzip, -⟩ := hlog.step hmem
    rw [hfate] at hzip
    obtain ⟨acceptance, rfl, hf⟩ := hstep.accepted (run_registrySound _) hzip
    refine ⟨⟨readings, acceptance, hcall, hf⟩, fun _ hmem' hne => ?_⟩
    rw [take_add_one, hcall, Option.toList_some, run_append_one] at hmem'
    refine transition_others (run_registrySound _) readings
      (.resolved (.accepted acceptance)) ?_ hne
    rwa [← Mutation.left_discard]

end Correlation

end LogosInspector.Operations
