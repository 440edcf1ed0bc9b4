import LogosInspector.Operations.Terminal

/-!
# A sweep touches only what is over

Every call of the registry begins with a sweep, and what a call does can only be said up to what its
sweep does. Here the sweep is taken out of the way once and for all: as long as the journals are in
order (`JournalsSound`), a sweep does not fail, it leaves the journals and the operations that are
not over alone, and all that it does to the others is to remove them or to purge their payloads
(`sweep_swept`).

That the journals are in order is an invariant of the registry, which is shown elsewhere; what is
needed of it here is that no deferred event waits for an operation that is over.
-/

namespace LogosInspector.Operations

open Mutation List Table

section Sweeps

variable {ext : OperationExternals}

/-! ### Purged records -/

/-- A record without the payloads that a sweep can purge. -/
def RuntimeOperationRecord.payloadless (record : RuntimeOperationRecord ext) :
    RuntimeOperationRecord ext :=
  { record with
    operation := { record.operation with acknowledgement := none, result := none }
    retainedTerminalPayloadBytes := 0
    resultPurged := false
    acknowledgementPurged := false }

/-- **What a sweep can do to a record** that it does not remove. -/
structure Purges (record record' : RuntimeOperationRecord ext) : Prop where
  same : record'.payloadless = record.payloadless
  running : record.operation.status.isTerminal = false → record' = record
  result : PurgedOr record.operation.result record'.operation.result record'.resultPurged
  acknowledgement : PurgedOr record.operation.acknowledgement record'.operation.acknowledgement
    record'.acknowledgementPurged
  resultPurged : record.resultPurged = true → record'.resultPurged = true
  acknowledgementPurged : record.acknowledgementPurged = true → record'.acknowledgementPurged = true

theorem Purges.refl (r : RuntimeOperationRecord ext) : Purges r r :=
  ⟨rfl, fun _ => rfl, .inl rfl, .inl rfl, id, id⟩

variable {r r' : RuntimeOperationRecord ext} {before after s : RegistryState ext}
  {moduleName : Text}

theorem Purges.operationId (h : Purges r r') : r'.operation.operationId = r.operation.operationId :=
  congrArg (·.operation.operationId) h.same

theorem Purges.status (h : Purges r r') : r'.operation.status = r.operation.status :=
  congrArg (·.operation.status) h.same

theorem Purges.trans {a b c : RuntimeOperationRecord ext} (h : Purges a b) (h' : Purges b c) :
    Purges a c where
  same := h'.same.trans h.same
  running hrun := by
    obtain rfl := h.running hrun
    exact h'.running hrun
  result := h.result.trans h'.result h'.resultPurged
  acknowledgement := h.acknowledgement.trans h'.acknowledgement h'.acknowledgementPurged
  resultPurged := h'.resultPurged ∘ h.resultPurged
  acknowledgementPurged := h'.acknowledgementPurged ∘ h.acknowledgementPurged

theorem Purges.purged (hover : r.operation.status.isTerminal = true) : Purges r r.purged.1 := by
  have hrun : r.operation.status.isTerminal = false → r.purged.1 = r :=
    fun hrun => by simp [hover] at hrun
  unfold RuntimeOperationRecord.purged at hrun ⊢
  split
  · next hsome =>
    rw [hsome] at hrun
    exact ⟨rfl, hrun, .inl rfl, .inr ⟨rfl, rfl⟩, id, fun _ => rfl⟩
  · next hn =>
    rw [hn] at hrun
    exact ⟨rfl, hrun, .inr ⟨rfl, rfl⟩, .inl rfl, fun _ => rfl, id⟩

/-! ### Swept registries -/

/-- **What a sweep can do to a registry**, in so far as it concerns operations and events. -/
structure Swept (before after : RegistryState ext) : Prop where
  journals : after.pendingModuleEvents = before.pendingModuleEvents
  running : ∀ record ∈ before.records, record.operation.status.isTerminal = false →
    record ∈ after.records
  origin : ∀ record' ∈ after.records, ∃ record ∈ before.records, Purges record record'

theorem Swept.of_eq (hrec : after.records = before.records)
    (hj : after.pendingModuleEvents = before.pendingModuleEvents) : Swept before after :=
  ⟨hj, fun _ hm _ => hrec ▸ hm, fun r hm => ⟨r, hrec ▸ hm, .refl r⟩⟩

theorem Swept.refl (s : RegistryState ext) : Swept s s := .of_eq rfl rfl

theorem Swept.trans {a b c : RegistryState ext} (h : Swept a b) (h' : Swept b c) : Swept a c where
  journals := h'.journals.trans h.journals
  running r hm hrun := h'.running r (h.running r hm hrun) hrun
  origin record'' hm := by
    obtain ⟨r', hmem', hpurge'⟩ := h'.origin record'' hm
    obtain ⟨r, hm, hpurge⟩ := h.origin r' hmem'
    exact ⟨r, hm, hpurge.trans hpurge'⟩

/-- A record that is not over is in the registry after a sweep just if it was before. -/
theorem Swept.mem_iff (h : Swept before after) (hrun : r.operation.status.isTerminal = false) :
    r ∈ after.records ↔ r ∈ before.records := by
  refine ⟨fun hm => ?_, fun hm => h.running r hm hrun⟩
  obtain ⟨_, _, hpurge⟩ := h.origin r hm
  rwa [hpurge.running (hpurge.status ▸ hrun)]

/-- The operation of an id is over, if there is one. -/
def RegistryState.Over (state : RegistryState ext) (operationId : Text) : Prop :=
  ∀ record ∈ state.records, record.operation.operationId = operationId →
    record.operation.status.isTerminal = true

theorem RegistryState.Over.swept {op : Text}
    (h : before.Over op) (hsw : Swept before after) : after.Over op := by
  intro r' hm hid
  obtain ⟨r, hr, hpurge⟩ := hsw.origin r' hm
  rw [hpurge.status]
  exact h r hr (hpurge.operationId.symm.trans hid)

/-! ### Journals in order -/

/-- The deferred events of a module, the oldest first. -/
def Journals.eventsOf (journals : Journals) (moduleName : Text) : List PendingModuleEvent :=
  ((journals.find? moduleName).map (·.events)).getD []

/-- The bytes of a journal are counted. -/
def PendingModuleEventJournal.Weighed (journal : PendingModuleEventJournal) : Prop :=
  journal.retainedBytes = (journal.events.map (·.eventBytes)).sum

/-- An operation that an event of a module can be deferred for: it has been sent to the module, and
has not been resolved. -/
def RegistryState.Awaits (state : RegistryState ext) (moduleName operationId : Text) : Prop :=
  ∃ record ∈ state.records, record.operation.operationId = operationId ∧
    record.operation.status.isTerminal = false ∧ record.pendingModuleName = some moduleName

/-- **A journal in order.** -/
structure PendingModuleEventJournal.Sound (state : RegistryState ext)
    (journal : PendingModuleEventJournal) : Prop where
  weighed : journal.Weighed
  count : journal.events.length ≤ maxPendingModuleEvents
  bytes : journal.retainedBytes ≤ maxPendingModuleEventBytes
  occupied : journal.events ≠ []
  wanted : ∀ pending ∈ journal.events, pending.candidateOperationIds ≠ []
  candidates : ∀ pending ∈ journal.events, ∀ operationId ∈ pending.candidateOperationIds,
    state.Awaits journal.moduleName operationId

/-- **All journals are in order.** -/
def JournalsSound (state : RegistryState ext) : Prop :=
  ∀ journal ∈ state.pendingModuleEvents, journal.Sound state

theorem RegistryState.Awaits.not_over {op : Text} (h : s.Awaits moduleName op) : ¬ s.Over op := by
  obtain ⟨r, hm, hid, hrun, -⟩ := h
  intro hover
  simp [hover r hm hid] at hrun

theorem RegistryState.Awaits.swept {op : Text}
    (h : before.Awaits moduleName op) (hsw : Swept before after) :
    after.Awaits moduleName op := by
  obtain ⟨r, hm, hid, hrun, hp⟩ := h
  exact ⟨r, hsw.running r hm hrun, hid, hrun, hp⟩

theorem PendingModuleEventJournal.Sound.mono
    {journal : PendingModuleEventJournal} (h : journal.Sound before)
    (hawait : ∀ op, before.Awaits journal.moduleName op →
      after.Awaits journal.moduleName op) : journal.Sound after :=
  { h with
    candidates := fun pending hp op hm =>
      hawait op (h.candidates pending hp op hm) }

theorem JournalsSound.swept (h : JournalsSound before)
    (hsw : Swept before after) : JournalsSound after := by
  intro journal hm
  rw [hsw.journals] at hm
  exact (h journal hm).mono fun _ hawait => hawait.swept hsw

/-! ### Removing an operation -/

section Remove

variable {s : RegistryState ext} {journal : PendingModuleEventJournal} {op : Text}

theorem withoutOperation_bytes_le (journal : PendingModuleEventJournal) (op : Text) :
    ((journal.withoutOperation op).events.map (·.eventBytes)).sum ≤
      (journal.events.map (·.eventBytes)).sum := by
  have hs : (journal.events.map fun pending : PendingModuleEvent =>
      { pending with
        candidateOperationIds := pending.candidateOperationIds.filter (· ≠ op) }).map
      (·.eventBytes) = journal.events.map (·.eventBytes) := by
    rw [map_map]
    rfl
  rw [← hs]
  exact (filter_sublist.map _).sum_le_sum (by simp)

/-- Taking a candidate off a journal in order leaves it within its limits. -/
theorem recalculateRetainedBytes_withoutOperation (h : journal.Sound s) (op : Text) :
    (journal.withoutOperation op).recalculateRetainedBytes =
      .ok (journal.withoutOperation op).recounted := by
  have hlen : (journal.withoutOperation op).events.length ≤ journal.events.length :=
    (length_filter_le _ _).trans (by simp)
  have hbytes := withoutOperation_bytes_le journal op
  have hcnt := h.count
  have hlimit := h.bytes
  rw [h.weighed] at hlimit
  refine bind_eq_ok.2 ⟨(), reject_eq_ok.2 ?_, rfl⟩
  rintro (hover | hover)
  · omega
  · change _ < ((journal.withoutOperation op).events.map (·.eventBytes)).sum at hover
    omega

theorem removeOperationFromPendingModuleEvents_ok (h : JournalsSound s) (op : Text) :
    removeOperationFromPendingModuleEvents s.pendingModuleEvents op =
      .ok ((s.pendingModuleEvents.modifyAll
        (fun journal => (journal.withoutOperation op).recounted)
        (PendingModuleEventJournal.recounted_withoutOperation_moduleName op)).filter
        fun journal => journal.events ≠ []) := by
  refine bind_eq_ok.2 ⟨(), ?_, rfl⟩
  rw [forM_eq_forM, forM_eq_ok]
  intro journal hm
  exact bind_eq_ok.2 ⟨_, recalculateRetainedBytes_withoutOperation (h journal hm) op, rfl⟩

/-- An operation that is over is a candidate of nothing. -/
theorem PendingModuleEventJournal.Sound.withoutOperation (h : journal.Sound s)
    (hover : s.Over op) : (journal.withoutOperation op).recounted = journal := by
  have hevs : (journal.withoutOperation op).events = journal.events := by
    have hs : (journal.events.map fun pending : PendingModuleEvent =>
        { pending with
          candidateOperationIds := pending.candidateOperationIds.filter (· ≠ op) }) =
        journal.events := by
      conv_rhs => rw [← map_id journal.events]
      refine map_congr_left fun pending hp => ?_
      have hf : pending.candidateOperationIds.filter (· ≠ op) = pending.candidateOperationIds := by
        refine filter_eq_self.2 fun cand hcand => ?_
        have hawait := h.candidates pending hp cand hcand
        simpa using fun heq : cand = op => hawait.not_over (heq ▸ hover)
      rw [hf]
      rfl
    unfold PendingModuleEventJournal.withoutOperation
    rw [hs]
    exact filter_eq_self.2 fun pending hp => by simpa using h.wanted pending hp
  have hw := h.weighed
  unfold PendingModuleEventJournal.Weighed at hw
  unfold PendingModuleEventJournal.recounted
  rw [hevs, ← hw]
  rfl

/-- **Removing an operation that is over** removes its record, and nothing else. -/
theorem removeRecord_over (h : JournalsSound s) (hover : s.Over op) :
    ∃ s', removeRecord op s = .ok () s' ∧ Swept s s' ∧
      s'.terminalRecords = s.terminalRecords.filter (· ≠ op) := by
  refine ⟨_, bind_ok_iff.2 ⟨_, _, get_eq_ok.2 ⟨rfl, rfl⟩, bind_ok_iff.2
    ⟨_, _, ofExcept_eq_ok.2 ⟨removeOperationFromPendingModuleEvents_ok h op, rfl⟩,
      set_eq_ok.2 rfl⟩⟩, ⟨?_, ?_, ?_⟩, rfl⟩
  · refine Table.ext_mem fun journal => ?_
    rw [Table.mem_filter, Table.mem_modifyAll]
    constructor
    · rintro ⟨⟨journal, hm, rfl⟩, -⟩
      rwa [(h journal hm).withoutOperation hover]
    · intro hm
      exact ⟨⟨journal, hm, (h journal hm).withoutOperation hover⟩,
        by simpa using (h journal hm).occupied⟩
  · intro r hm hrun
    refine mem_erase.2 ⟨hm, fun hid => ?_⟩
    simp [hover r hm hid] at hrun
  · exact fun r hm => ⟨r, (mem_erase.1 hm).1, .refl r⟩

theorem forM_removeRecord_over (operationIds : List Text) (h : JournalsSound s)
    (hover : ∀ op ∈ operationIds, s.Over op) :
    ∃ s', operationIds.forM removeRecord s = .ok () s' ∧ Swept s s' ∧
      s'.terminalRecords ⊆ s.terminalRecords := by
  induction operationIds generalizing s with
  | nil => exact ⟨s, rfl, .refl s, List.Subset.refl _⟩
  | cons op _ ih =>
    obtain ⟨middle, hmid, hsw, ht⟩ :=
      removeRecord_over h (hover op mem_cons_self)
    obtain ⟨s', hs', hswept', hterminal'⟩ := ih (h.swept hsw) fun other ho =>
      (hover other (mem_cons_of_mem _ ho)).swept hsw
    refine ⟨s', ?_, hsw.trans hswept', List.Subset.trans hterminal' ?_⟩
    · rw [forM_eq_forM, forM_cons]
      exact bind_ok_iff.2 ⟨(), middle, hmid, hs'⟩
    · rw [ht]
      exact filter_subset_self _

/-- The operations that the registry has listed as over are over. -/
def RegistryState.Listed (state : RegistryState ext) : Prop :=
  ∀ operationId ∈ state.terminalRecords, state.Over operationId

theorem RegistryState.Listed.swept (h : before.Listed)
    (hsw : Swept before after) (hsub : after.terminalRecords ⊆ before.terminalRecords) :
    after.Listed :=
  fun op hm => (h op (hsub hm)).swept hsw

theorem evictTerminalRecords_swept (fuel : ℕ) (h : JournalsSound s) (hl : s.Listed) :
    ∃ s', evictTerminalRecords fuel s = .ok () s' ∧ Swept s s' ∧ s'.Listed := by
  induction fuel generalizing s with
  | zero => exact ⟨s, rfl, .refl s, hl⟩
  | succ _ ih =>
    unfold evictTerminalRecords
    simp only [bind_ok_iff, get_eq_ok]
    by_cases hmany : maxRetainedTerminalRecords < s.terminalRecords.length
    · cases hlist : s.terminalRecords with
      | nil => simp [hlist] at hmany
      | cons op terminalRecords =>
        -- the list is shortened, then the record of its head is removed
        have hover : s.Over op := hl op (hlist ▸ mem_cons_self)
        have hshort : JournalsSound { s with terminalRecords } :=
          h.swept (.of_eq rfl rfl)
        have hover' : ({ s with terminalRecords } : RegistryState ext).Over op :=
          hover
        obtain ⟨middle, hmid, hsw, ht⟩ := removeRecord_over hshort hover'
        have hs : Swept s { s with terminalRecords } := .of_eq rfl rfl
        have hsw : Swept s middle := hs.trans hsw
        have hsub : middle.terminalRecords ⊆ s.terminalRecords := by
          rw [ht, hlist]
          exact List.Subset.trans (filter_subset_self _) (subset_cons_self _ _)
        obtain ⟨s', hstate', hswept', hl'⟩ :=
          ih (h.swept hsw) (hl.swept hsw hsub)
        refine ⟨s', ⟨_, _, ⟨rfl, rfl⟩, ?_⟩, hsw.trans hswept', hl'⟩
        rw [if_pos hmany, hlist]
        exact bind_ok_iff.2 ⟨(), _, set_eq_ok.2 rfl, bind_ok_iff.2 ⟨(), middle, hmid, hstate'⟩⟩
    · refine ⟨s, ⟨_, _, ⟨rfl, rfl⟩, ?_⟩, .refl s, hl⟩
      rw [if_neg hmany]
      rfl

end Remove

/-! ### Purging payloads -/

theorem purgeOldestTerminalPayload_swept {s' : RegistryState ext} (hlist : s.Listed)
    (h : purgeOldestTerminalPayload s = some s') :
    Swept s s' ∧ s'.terminalRecords = s.terminalRecords := by
  simp only [purgeOldestTerminalPayload, Option.bind_eq_bind, Option.bind_eq_some_iff,
    Option.pure_def, Option.some.injEq] at h
  obtain ⟨r, hf, rfl⟩ := h
  obtain ⟨op, hm, hr⟩ := mem_filterMap.1 (mem_of_find?_eq_some hf)
  obtain ⟨hr, hid⟩ := find?_eq_some.1 hr
  have hpurge : Purges r r.purged.1 := .purged (hlist op hm r hr hid)
  refine ⟨⟨rfl, fun other ho hrun => ?_, fun other ho => ?_⟩, rfl⟩
  · refine mem_insert.2 (.inr ⟨ho, fun hs => ?_⟩)
    have hs : other = r := eq_of_key_eq ho hr (hs.trans hpurge.operationId)
    rw [hs, hlist op hm r hr hid] at hrun
    cases hrun
  · rcases mem_insert.1 ho with rfl | ⟨ho, -⟩
    · exact ⟨r, hr, hpurge⟩
    · exact ⟨other, ho, .refl other⟩

theorem purgeTerminalPayloads_swept (fuel : ℕ) (hlist : s.Listed) :
    Swept s (purgeTerminalPayloads fuel s) := by
  induction fuel generalizing s with
  | zero => exact .refl s
  | succ _ ih =>
    unfold purgeTerminalPayloads
    split_ifs
    · split
      · exact .of_eq rfl rfl
      · next s' hpurge =>
        obtain ⟨hsw, ht⟩ := purgeOldestTerminalPayload_swept hlist hpurge
        exact hsw.trans (ih (hlist.swept hsw (by rw [ht]; exact List.Subset.refl _)))
    · exact .refl s

/-! ### The sweep -/

theorem recount_listed (s : RegistryState ext) : s.recount.Listed := by
  intro op hm r hr hid
  have hlist := (mem_filter.1 hm).2
  have hf : s.records.find? op = some r := find?_eq_some.2 ⟨hr, hid⟩
  rw [hf] at hlist
  simp only [Option.any_some, Bool.and_eq_true] at hlist
  exact hlist.1

/-- **A sweep** of a registry whose journals are in order does not fail, and touches only what is
over. -/
theorem sweep_swept (h : JournalsSound s) (now monotonicNow : ℕ) :
    ∃ swept, sweepTerminalHistory now monotonicNow s = .ok () swept ∧ Swept s swept := by
  have hrec : Swept s s.recount := .of_eq rfl rfl
  obtain ⟨expired, he, hsw, hsub⟩ := forM_removeRecord_over
    (s.recount.terminalRecords.filter fun op =>
      (s.recount.records.find? op).any (·.expired now monotonicNow))
    (h.swept hrec) fun op hm =>
      recount_listed s op (mem_filter.1 hm).1
  have hlist : expired.Listed := (recount_listed s).swept hsw hsub
  obtain ⟨evicted, hevicted, hsweep', hlist'⟩ := evictTerminalRecords_swept
    expired.terminalRecords.length ((h.swept hrec).swept hsw) hlist
  refine ⟨_, ?_, hrec.trans (hsw.trans (hsweep'.trans (purgeTerminalPayloads_swept
    (2 * evicted.terminalRecords.length + 1) hlist')))⟩
  exact bind_ok_iff.2 ⟨(), _, modify_eq_ok.2 rfl, bind_ok_iff.2
    ⟨_, _, get_eq_ok.2 ⟨rfl, rfl⟩, bind_ok_iff.2 ⟨(), expired, he,
      bind_ok_iff.2 ⟨_, _, get_eq_ok.2 ⟨rfl, rfl⟩, bind_ok_iff.2
        ⟨(), evicted, hevicted, modify_eq_ok.2 rfl⟩⟩⟩⟩⟩

end Sweeps

end LogosInspector.Operations
