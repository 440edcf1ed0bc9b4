import LogosInspector.Operations.Charter

/-!
# Early module events count like late ones

A module may report on a request before the request has been accepted: the events are deferred,
and replayed once the operation is accepted. What becomes of an operation does not depend on when
its events arrive.

An event that arrives late is applied at once (`ingest_late`). One that arrives early is put at the
end of the journal (`ingest_early`), and accepting the operation applies the events of the journal
in their order (`transition_accepted`). Either way the events are applied one after the other to the
outcome of the accepted operation, and nothing else touches it, because the other operations keep
their charters (`Scene`).
-/

namespace LogosInspector.Operations

open Mutation List Table

section Early

variable {ext : OperationExternals}

/-! ### The other operations -/

variable {contract : ModuleTerminalEventContract} {identity op : Text}
  {events : List ModuleEventEnvelope} {s s' : RegistryState ext} {r : RuntimeOperationRecord ext}

variable {acc : ObservableOperationAcceptance}

section Others

/-- What is known of a registry while an operation is accepted and its events arrive: no other
operation takes its events or has its id. -/
structure Scene (contract : ModuleTerminalEventContract) (identity operationId : Text)
    (events : List ModuleEventEnvelope) (records : Records ext) : Prop where
  uncorrelated : ∀ record ∈ records, record.operation.operationId ≠ operationId →
    ∀ event ∈ events, correlatesEvent event record.operation = false
  distinct : ∀ record ∈ records, record.operation.operationId ≠ operationId →
    ∀ other, record.operation.terminalEvent = some other → other.module = contract.module →
      other.correlation = contract.correlation →
      operationCorrelationValue record.operation other.correlation ≠ some identity

variable {records records' : Records ext}

section

variable (h : Scene contract identity op events records)

include h

theorem Scene.carried
    (horigin : ∀ r' ∈ records', r'.operation.operationId ≠ op → ∃ r ∈ records, SameCharter r r') :
    Scene contract identity op events records' := by
  constructor
  all_goals
    intro r' hmem' hne
    obtain ⟨r, hm, hc⟩ := horigin r' hmem' hne
    have hs := hc.sameContract
    rw [hs.operationId] at hne
  · intro event hevent
    rw [hs.correlates]
    exact h.uncorrelated r hm hne event hevent
  · intro other ho hmod hk
    rw [hs.correlationValue]
    exact h.distinct r hm hne other (hs.terminalEvent ▸ ho) hmod hk

theorem Scene.descends {touched : Text → Prop} (hd : Descends touched records records') :
    Scene contract identity op events records' :=
  h.carried fun r' hmem' _ =>
    (hd r' hmem').imp fun _ ⟨hm, hc, _⟩ => ⟨hm, hc⟩

omit h in
theorem Scene.swept (h : Scene contract identity op events s.records)
    (hsw : Swept s s') : Scene contract identity op events s'.records :=
  h.descends (hsw.descends fun _ => False)

/-- The records that an event is for. -/
theorem Scene.correlated {event : ModuleEventEnvelope} (hevent : event ∈ events)
    (hr : records.find? op = some r) :
    correlatedRecords event records =
      if correlatesEvent event r.operation = true then [r] else [] := by
  have hall : ∀ other ∈ records, correlatesEvent event other.operation = true → other = r := by
    intro other hm hc
    by_contra hne
    have hid : other.operation.operationId ≠ op := fun hid => hne (Option.some.inj
      ((find?_eq_some.2 ⟨hm, hid⟩).symm.trans hr))
    simp [h.uncorrelated other hm hid event hevent] at hc
  have hm : r ∈ records := (find?_eq_some.1 hr).1
  split_ifs with hc
  · exact records_filter_eq_singleton hm hc hall
  · exact filter_eq_nil_iff.2 fun other ho hcon =>
      hc (hall other ho hcon ▸ hcon)

end

/-- No other operation has the id, so that the acceptance has no problem. -/
theorem Scene.acceptable (h : Scene acc.terminalEvent identity op events records)
    (hident : acc.correlation.identityFor acc.terminalEvent.correlation = some identity) :
    acceptedCorrelationProblem records op acc.correlation acc.terminalEvent = none := by
  unfold acceptedCorrelationProblem
  rw [hident]
  dsimp only
  rw [if_neg]
  simp only [any_eq_true, Bool.and_eq_true, decide_eq_true_eq, Option.any_eq_true, not_exists,
    not_and]
  intro other hm hne contract hc hs hval
  exact h.distinct other hm hne contract hc hs.1 hs.2 hval

end Others

/-! ### What an operation has to say -/

variable {outcome : Outcome} {r' : RuntimeOperationRecord ext}

/-- An operation that has been accepted, and what it has to say. -/
structure Tells (contract : ModuleTerminalEventContract) (identity : Text) (outcome : Outcome)
    (record : RuntimeOperationRecord ext) : Prop where
  waits : Waits contract identity record
  shows : Shows record outcome
  exact : record.operation.status.isTerminal = false → record.operation.outcome = outcome

/-- A purge takes the result at most, and only of an operation that is over. -/
theorem Tells.purges (h : Tells contract identity outcome r) (hpurge : Purges r r') :
    Tells contract identity outcome r' where
  waits := h.waits.same hpurge.sameCharter.sameContract
  shows :=
    { status := hpurge.status.trans h.shows.status
      error := (congrArg (·.operation.error) hpurge.same).trans h.shows.error
      terminalReason :=
        (congrArg (·.operation.terminalReason) hpurge.same).trans h.shows.terminalReason
      bytesWritten := (congrArg (·.operation.bytesWritten) hpurge.same).trans h.shows.bytesWritten
      contentLength := (congrArg (·.operation.contentLength) hpurge.same).trans
        h.shows.contentLength
      result := h.shows.result.trans hpurge.result hpurge.resultPurged }
  exact hrun := by
    rw [hpurge.status] at hrun
    rw [hpurge.running hrun]
    exact h.exact hrun

/-- The end of an operation is noted and the registry is swept: what it has to say stays. -/
theorem tells_of_tracked {terminalAt terminalExpiresAt : ℕ} (hr : s.records.find? op = some r)
    (hwait : Waits contract identity r) (hout : r.operation.outcome = outcome)
    (hsw : Swept (trackNewlyTerminalRecord op terminalAt terminalExpiresAt s) s')
    (hrec' : s'.records.find? op = some r') :
    Tells contract identity outcome r' := by
  obtain ⟨hmem', hid'⟩ := find?_eq_some.1 hrec'
  obtain ⟨tracked, ht, hpurge⟩ := hsw.origin r' hmem'
  obtain ⟨_, ho, -, hoperation⟩ :=
    find?_track (find?_eq_some.2 ⟨ht, hpurge.operationId.symm.trans hid'⟩)
  cases hr.symm.trans ho
  -- what is noted is not part of the operation
  have hsays : tracked.operation.outcome = outcome := hoperation ▸ hout
  refine Tells.purges ⟨hwait.same ?_, hsays ▸ shows_outcome tracked, fun _ => hsays⟩ hpurge
  exact SameCharter.sameContract (congrArg RuntimeOperation.charter hoperation)

/-- What is replayed to an accepted operation is applied in its order. -/
theorem replayFates_outcome {clock : WallClock ext} {events : List PendingModuleEvent}
    {fates : List EventFate}
    (h : replayFates clock op events r = .ok fates r')
    (hwait : Waits contract identity r) :
    r'.operation.outcome = (eventsFor op events).foldl
      (Outcome.deferred ext contract identity) r.operation.outcome := by
  induction events generalizing r fates with
  | nil =>
    obtain ⟨-, rfl⟩ := pure_ok_iff.1 h
    rfl
  | cons _ _ ih =>
    simp only [replayFates, bind_ok_iff, pure_ok_iff] at h
    obtain ⟨_, _, hfate, _, _, hfates, -, rfl⟩ := h
    have hrest := ih hfates (hwait.same (replayFate_sameCharter hfate).sameContract)
    rcases replayFate_eq_ok hfate with ⟨hcand, -, rfl⟩ | ⟨_, hcand, ha, -⟩
    · rw [hrest]
      simp [eventsFor, hcand]
    · rw [hrest, applyDeferredModuleEvent_outcome ha hwait]
      simp [eventsFor, hcand]

/-! ### Late events -/

variable {readings : Readings ext} {event : ModuleEventEnvelope}

section Late

variable {result : ModuleEventIngressResult × Option Text}

theorem RegistrySound.ingest (h : RegistrySound s)
    (hok : ingestModuleEventWithSettlement readings event s = .ok result s') :
    RegistrySound s' := by
  have hp := perform_registrySound h readings (.ingestModuleEvent event)
  rwa [show RegistryCall.perform readings (.ingestModuleEvent event) s = .ok () s' from
    bind_ok_iff.2 ⟨result, s', hok, rfl⟩] at hp

/-- **A late event** is applied at once. -/
theorem ingest_late (hsound : RegistrySound s) (hscene : Scene contract identity op events
    s.records)
    (hevent : event ∈ events) (hmatches : Matches contract identity event)
    (hok : ingestModuleEventWithSettlement readings event s = .ok result s')
    (htells : ∀ r, s.records.find? op = some r → Tells contract identity outcome r)
    (hrec' : s'.records.find? op = some r') :
    Tells contract identity (outcome.event ext contract event) r' := by
  obtain ⟨hmem', hid'⟩ := find?_eq_some.1 hrec'
  obtain ⟨r, hm, hcharter, -⟩ := ingest_descends hsound hok r' hmem'
  have hid : r.operation.operationId = op :=
    hcharter.sameContract.operationId.symm.trans hid'
  have hr : s.records.find? op = some r := find?_eq_some.2 ⟨hm, hid⟩
  obtain ⟨hwait, hshow, hexact⟩ := htells r hr
  cases ht : r.operation.status.isTerminal with
  | true =>
    -- the operation was over, and is as it was
    have he : StateEvolves Advances (fun _ => False) s s' :=
      (keeps_ingestModuleEventWithSettlement advances_upheld readings event s).of_ok hok
    obtain ⟨origin, ho | hfalse, ha⟩ := he r' hmem'
    · obtain rfl : origin = r := eq_of_key_eq ho hm
        ((ha.operationId.symm.trans hid').trans hid.symm)
      have hf := ha.frozen (hsound.records origin ho) ht
      rw [show outcome.event ext contract event = outcome from if_pos (hshow.status ▸ ht)]
      refine ⟨hwait.same hcharter.sameContract, hshow.frozen hf, fun hrun => ?_⟩
      rw [hf.status, ht] at hrun
      cases hrun
    · exact hfalse.elim
  | false =>
    rcases ingest_result readings event hsound with
      ⟨_, heq⟩ | ⟨_, -, hsw, ⟨_, _, heq, -⟩ |
        ⟨ingress, records, _, middle, expiry, _, _, hap, hd, -, heq, hfin⟩⟩
    all_goals rw [heq] at hok; cases hok
    have hc := (hscene.swept hsw).correlated hevent ((swept_find? hsw ht).2 hr)
    rw [if_pos (hwait.correlates hmatches)] at hc
    cases hap with
    | unclaimed hn => cases hn.symm.trans hc
    | ambiguous hmany => cases hmany.symm.trans hc
    | stale hone hover =>
      cases hone.symm.trans hc
      simp [ht] at hover
    | applied hone hrun happly =>
      cases hone.symm.trans hc
      cases hd with
      | deferred hu => simp at hu
      | settled =>
        have hs := SameCharter.sameContract
          (keptByEdits_sameCharter.of_applyCorrelatedModuleEvent hrun happly)
        have hid₁ := hs.operationId.trans hid
        rw [show ModuleEventIngressResult.operationId (.applied r.operation.operationId) =
          some op from congrArg some hid] at hfin
        refine tells_of_tracked ?_ (hwait.same hs) ?_ hfin hrec'
        · exact (find?_insert _ _ _).trans (if_pos hid₁.symm)
        · rw [applyCorrelatedModuleEvent_outcome happly hwait.terminalEvent ht, hexact ht]

end Late

/-! ### The acceptance -/

section Acceptance

variable {acc : ObservableOperationAcceptance} {clock : WallClock ext}
  {disposition : TransitionDisposition}

variable {change : RuntimeOperationTransition}

theorem RegistrySound.transition (h : RegistrySound s)
    (hok : Operations.transition readings op change s = .ok disposition s') :
    RegistrySound s' := by
  have hp := perform_registrySound h readings (.transition op change)
  rwa [show RegistryCall.perform readings (.transition op change) s = .ok () s' from
    bind_ok_iff.2 ⟨disposition, s', hok, rfl⟩] at hp

theorem applyTransition_accepted_outcome
    (h : applyTransition clock (.resolved (.accepted acc)) r = .ok disposition r') :
    r'.operation.outcome = r.operation.outcome.accepted := by
  obtain ⟨_, _, h⟩ := applyTransition_accepted_eq_ok h
  exact outcome_of_essence (pushEvent_essence h)

/-- **Accepting an operation** applies the events that were deferred for it. -/
theorem transition_accepted (hsound : RegistrySound s)
    (hscene : Scene acc.terminalEvent identity op events s.records)
    (hident : acc.correlation.identityFor acc.terminalEvent.correlation =
      some identity) (hr : s.records.find? op = some r)
    (hrun : r.operation.status.isTerminal = false)
    (hp : r.pendingModuleName = some acc.terminalEvent.module)
    (hok : transition readings op (.resolved (.accepted acc)) s =
      .ok disposition s') (hrec' : s'.records.find? op = some r') :
    Tells acc.terminalEvent identity ((eventsFor op
        (s.pendingModuleEvents.eventsOf acc.terminalEvent.module)).foldl
        (Outcome.deferred ext acc.terminalEvent identity) r.operation.outcome.accepted)
      r' := by
  rcases transition_result readings op (.resolved (.accepted acc)) hsound.journals
    with ⟨e, heq⟩ | ⟨swept, -, hsw, ⟨e, failed, heq, -⟩ | ⟨hn, heq⟩ |
      ⟨found, r₁, _, middle, expiry, _, hf, hap, hreplays, heq, hfin⟩⟩
  all_goals rw [heq] at hok; cases hok
  · rw [(swept_find? hsw hrun).2 hr] at hn
    cases hn
  · cases ((swept_find? hsw hrun).2 hr).symm.trans hf
    have hfind₁ := find?_insert_changed hf hap.changed
    cases hap with
    | stale hover => simp [hrun] at hover
    | rejected _ hprob =>
      cases ((hscene.swept hsw).acceptable hident).symm.trans hprob
    | applied _ _ happly =>
      have hwait := Waits.of_accepted (applyTransition_accepted_charter happly) hident
      rw [show replayedModule r (.resolved (.accepted acc)) =
        some acc.terminalEvent.module from (if_pos ⟨hrun, rfl⟩).trans hp] at hreplays
      cases hreplays with
      | journal hfound hreplay =>
        cases hfind₁.symm.trans hfound
        have hs := (replayFates_sameCharter hreplay).sameContract
        refine tells_of_tracked ?_ (hwait.same hs) ?_ hfin hrec'
        · refine (find?_insert _ _ _).trans (if_pos ?_)
          exact (hs.operationId.trans (find?_eq_some.1 hfind₁).2).symm
        · rw [replayFates_outcome hreplay hwait, applyTransition_accepted_outcome happly]
          exact congrArg (fun journals : Journals => (eventsFor op
            (journals.eventsOf acc.terminalEvent.module)).foldl _ _) hsw.journals

theorem Scene.transition (hsound : RegistrySound s)
    (h : Scene contract identity op events s.records)
    (hok : Operations.transition readings op change s = .ok disposition s') :
    Scene contract identity op events s'.records := by
  obtain ⟨_, hsw, ho⟩ := transition_origin hsound.journals hok
  refine (h.swept hsw).carried fun r' hmem' hne => ?_
  obtain ⟨r, hm, hid, hpurge, -⟩ := ho r' hmem'
  exact ⟨r, hm, (hpurge (hid ▸ hne)).sameCharter⟩

end Acceptance

/-! ### Early events -/

section Deferral

/-- The bytes of an event in a journal. -/
def ModuleEventEnvelope.weight (ext : OperationExternals) (event : ModuleEventEnvelope) : ℕ :=
  (event.retainedSerializedBytes ext).toOption.getD 0

/-- **A journal has room for some more events.** -/
structure Room (state : RegistryState ext) (moduleName : Text)
    (events : List ModuleEventEnvelope) : Prop where
  count : (state.pendingModuleEvents.eventsOf moduleName).length + events.length ≤
    maxPendingModuleEvents
  bytes : ((state.pendingModuleEvents.eventsOf moduleName).map (·.eventBytes)).sum +
    (events.map (·.weight ext)).sum ≤ maxPendingModuleEventBytes

variable {moduleName : Text}

theorem Room.nil (h : Room s moduleName events) : Room s moduleName [] :=
  ⟨(Nat.le_add_right _ _).trans h.count, (Nat.le_add_right _ _).trans h.bytes⟩

theorem eventsFor_append (op : Text) (events events' : List PendingModuleEvent) :
    eventsFor op (events ++ events') = eventsFor op events ++ eventsFor op events' := by
  simp [eventsFor]

/-- What is known of an operation that waits to be accepted, once some events have arrived. -/
structure Deferred (operationId moduleName : Text) (record : RuntimeOperationRecord ext)
    (early rest : List ModuleEventEnvelope) (state : RegistryState ext) : Prop where
  find : ∃ record', state.records.find? operationId = some record' ∧
    record'.essence = record.essence
  journal : eventsFor operationId (state.pendingModuleEvents.eventsOf moduleName) = early
  room : Room state moduleName rest

/-- An operation that waits to be accepted is not over. -/
theorem RegistrySound.running (h : RegistrySound s) (hr : s.records.find? op = some r)
    (hp : r.pendingModuleName = some moduleName) :
    r.operation.status.isTerminal = false := by
  by_contra ht
  have hsound := h.records r (find?_eq_some.1 hr).1
  have hrel := (hsound.released (by simpa using ht)).2
  simp [hp] at hrel

theorem mem_pendingModuleEventCandidates (hr : s.records.find? op = some r)
    (hrun : r.operation.status.isTerminal = false)
    (hp : r.pendingModuleName = some moduleName) :
    op ∈ pendingModuleEventCandidates s.records moduleName := by
  obtain ⟨hm, rfl⟩ := find?_eq_some.1 hr
  refine mem_map.2 ⟨r, List.mem_filter.2 ⟨hm, ?_⟩, rfl⟩
  simp [hrun, hp]

/-- **An early event is put at the end of its journal**, which loses nothing if it has room. -/
theorem Defers.fits {clock : WallClock ext} {candidates : List Text}
    {evicted : List PendingModuleEvent} (h : Defers clock event candidates evicted s s')
    (hroom : Room s event.moduleName (event :: events)) :
    s'.pendingModuleEvents.eventsOf event.moduleName =
      s.pendingModuleEvents.eventsOf event.moduleName ++
        [⟨event, candidates, event.weight ext⟩] := by
  obtain ⟨_, eventBytes, hbytes, hsplit, -, -, hj⟩ := h.events
  have hw : event.weight ext = eventBytes := by
    simp [ModuleEventEnvelope.weight, hbytes, Except.toOption]
  have hcnt := hroom.count
  have hfits := hroom.bytes
  rw [length_cons] at hcnt
  rw [map_cons, sum_cons] at hfits
  have hn : evicted = [] := h.spared eventBytes hbytes (by omega) (by omega)
  rw [hj, Journals.eventsOf_replace, if_pos rfl, hsplit, hn, hw, nil_append]

/-- **An early event** is deferred. -/
theorem ingest_early {early rest : List ModuleEventEnvelope} (hsound : RegistrySound s)
    (hscene : Scene contract identity op events s.records) (hevent : event ∈ events)
    (hp : r.pendingModuleName = some event.moduleName)
    (hdeferred : Deferred op event.moduleName r early (event :: rest) s)
    {result : ModuleEventIngressResult × Option Text}
    (hok : ingestModuleEventWithSettlement readings event s = .ok result s') :
    Deferred op event.moduleName r (early ++ [event]) rest s' := by
  obtain ⟨⟨r₁, hr, he⟩, hj, hroom⟩ := hdeferred
  have hpending₁ : r₁.pendingModuleName = some event.moduleName :=
    (congrArg (·.pendingModuleName) he).trans hp
  have hrun := hsound.running hr hpending₁
  rcases ingest_result readings event hsound with
    ⟨_, heq⟩ | ⟨swept, -, hsw, ⟨_, _, heq, -⟩ |
      ⟨ingress, records, _, middle, expiry, _, _, hap, hd, -, heq, hfin⟩⟩
  all_goals rw [heq] at hok; cases hok
  have hfound := (swept_find? hsw hrun).2 hr
  have hc := (hscene.swept hsw).correlated hevent hfound
  have hu :=
    (hsound.records r₁ (find?_eq_some.1 hr).1).unaccepted (by simp [hpending₁])
  rw [not_correlatesEvent hu, if_neg (by simp)] at hc
  have hcand := mem_pendingModuleEventCandidates hfound hrun hpending₁
  cases hap with
  | stale hone | applied hone => cases hone.symm.trans hc
  | ambiguous hmany => cases hmany.symm.trans hc
  | unclaimed _ hunclaimed =>
    cases hd with
    | settled hclaimed => simp [hclaimed hunclaimed] at hcand
    | deferred _ _ hdef =>
      have hroom' : Room { swept with records := swept.records } event.moduleName (event :: rest) :=
        ⟨hsw.journals ▸ hroom.count, hsw.journals ▸ hroom.bytes⟩
      have hevs := hdef.fits hroom'
      -- noting ends and sweeping change nothing for this operation
      have hjournals : s'.pendingModuleEvents = middle.pendingModuleEvents :=
        hfin.journals.trans (tracked_journals _ _ _)
      rw [← hjournals] at hevs
      rcases hdef.records op with ⟨hn, -⟩ | ⟨_, r₂, ho, hrec₂, hpush⟩
      · rw [hfound] at hn
        cases hn
      · cases hfound.symm.trans ho
        have he₂ := pushEvidence_essence hpush
        have hrunning₂ : r₂.operation.status.isTerminal = false :=
          (congrArg (·.operation.status.isTerminal) he₂).trans hrun
        obtain ⟨hmem₂, hid₂⟩ := find?_eq_some.1 hrec₂
        refine ⟨⟨r₂, (swept_find? hfin hrunning₂).2 (find?_eq_some.2
          ⟨mem_tracked hmem₂ hrunning₂, hid₂⟩), he₂.trans he⟩, ?_, ?_⟩
        · rw [hevs, eventsFor_append]
          rw [hsw.journals, hj]
          simp [eventsFor, hcand]
        · obtain ⟨hcnt, hbytes⟩ := hroom'
          rw [length_cons] at hcnt
          rw [map_cons, sum_cons] at hbytes
          dsimp only at hcnt hbytes hevs
          constructor <;> rw [hevs]
          · rw [length_append, length_singleton]
            omega
          · rw [map_append, sum_append, map_singleton, sum_singleton]
            dsimp only
            omega

end Deferral

/-! ### Runs -/

section Runs

/-- Make calls that all succeed. -/
def performAll (calls : List (Readings ext × RegistryCall ext)) :
    Mutation (RegistryState ext) Unit :=
  calls.forM fun call => call.2.perform call.1

variable {u : Unit}

variable {calls : List (Readings ext × RegistryCall ext)} {early after : List ModuleEventEnvelope}

theorem performAll_cons_eq_ok {call : Readings ext × RegistryCall ext} :
    performAll (call :: calls) s = .ok u s' ↔ ∃ u' middle, call.2.perform call.1 s = .ok u' middle ∧
        performAll calls middle = .ok u s' :=
  bind_ok_iff

theorem performAll_append_eq_ok {calls' : List (Readings ext × RegistryCall ext)} :
    performAll (calls ++ calls') s = .ok u s' ↔ ∃ u' middle, performAll calls s = .ok u' middle ∧
        performAll calls' middle = .ok u s' := by
  induction calls generalizing s with
  | nil =>
    constructor
    · exact fun h => ⟨(), s, rfl, h⟩
    · rintro ⟨_, _, hpure, h⟩
      obtain ⟨-, rfl⟩ := pure_ok_iff.1 hpure
      exact h
  | cons _ _ ih =>
    rw [cons_append, performAll_cons_eq_ok]
    simp only [performAll_cons_eq_ok, ih]
    constructor
    · rintro ⟨u₁, s₁, hfirst, u₂, s₂, hcall, hcall'⟩
      exact ⟨u₂, s₂, ⟨u₁, s₁, hfirst, hcall⟩, hcall'⟩
    · rintro ⟨u₂, s₂, ⟨u₁, s₁, hfirst, hcall⟩, hcall'⟩
      exact ⟨u₁, s₁, hfirst, u₂, s₂, hcall, hcall'⟩

/-- The first of some events arrives, and then the others. -/
theorem performAll_ingest_cons
    (hcall : calls.map Prod.snd = (event :: events).map .ingestModuleEvent)
    (hok : performAll calls s = .ok u s') :
    ∃ readings rest a middle, ingestModuleEventWithSettlement readings event s = .ok a middle ∧
      rest.map Prod.snd = events.map .ingestModuleEvent ∧
      performAll rest middle = .ok u s' := by
  obtain ⟨⟨readings, _⟩, rest, rfl, rfl, hrest⟩ := map_eq_cons_iff.1 hcall
  obtain ⟨_, _, hfirst, hok⟩ := performAll_cons_eq_ok.1 hok
  obtain ⟨a, _, hi, hpure⟩ := bind_ok_iff.1 hfirst
  obtain ⟨-, rfl⟩ := pure_ok_iff.1 hpure
  exact ⟨readings, rest, a, _, hi, hrest, hok⟩

/-- **Early events** are deferred in their order. -/
theorem performAll_early
    {before : List ModuleEventEnvelope}
    (hcall : calls.map Prod.snd = before.map .ingestModuleEvent)
    (hsound : RegistrySound s)
    (hscene : Scene contract identity op events s.records)
    (hb : ∀ event ∈ before, event ∈ events ∧ event.moduleName = contract.module)
    (hp : r.pendingModuleName = some contract.module)
    (hdef : Deferred op contract.module r early before s)
    (hok : performAll calls s = .ok u s') :
    RegistrySound s' ∧ Scene contract identity op events s'.records ∧
      Deferred op contract.module r (early ++ before) [] s' := by
  induction before generalizing calls s early with
  | nil =>
    obtain rfl : calls = [] := by simpa using hcall
    obtain ⟨-, rfl⟩ := pure_ok_iff.1 hok
    rw [append_nil]
    exact ⟨hsound, hscene, hdef⟩
  | cons event _ ih =>
    obtain ⟨_, _, _, _, hi, hrest, hok⟩ := performAll_ingest_cons hcall hok
    obtain ⟨hevent, hmod⟩ := hb event mem_cons_self
    have hnext := ingest_early hsound hscene hevent (hmod ▸ hp) (hmod ▸ hdef) hi
    rw [hmod] at hnext
    have hall := ih hrest (hsound.ingest hi) (hscene.descends (ingest_descends hsound hi))
      (fun event hm => hb event (mem_cons_of_mem _ hm)) hnext hok
    rwa [append_assoc] at hall

/-- **Late events** are applied in their order. -/
theorem performAll_late (hcall : calls.map Prod.snd = after.map .ingestModuleEvent)
    (hsound : RegistrySound s)
    (hscene : Scene contract identity op events s.records)
    (hafter : ∀ event ∈ after, event ∈ events ∧ Matches contract identity event)
    (htells : ∀ r, s.records.find? op = some r →
      Tells contract identity outcome r) (hok : performAll calls s = .ok u s')
    (hrec' : s'.records.find? op = some r') :
    Tells contract identity (after.foldl (Outcome.deferred ext contract identity) outcome) r' := by
  induction after generalizing calls s outcome with
  | nil =>
    obtain rfl : calls = [] := by simpa using hcall
    obtain ⟨-, rfl⟩ := pure_ok_iff.1 hok
    exact htells r' hrec'
  | cons event _ ih =>
    obtain ⟨_, _, _, _, hi, hrest, hok⟩ := performAll_ingest_cons hcall hok
    obtain ⟨hevent, hmatches⟩ := hafter event mem_cons_self
    refine ih hrest (hsound.ingest hi) (hscene.descends (ingest_descends hsound hi))
      (fun event hm => hafter event (mem_cons_of_mem _ hm)) (fun _ hr => ?_) hok
    rw [Outcome.deferred_of_matches hmatches]
    exact ingest_late hsound hscene hevent hmatches hi htells hr

/-- **An operation is accepted, and late events arrive**: those that were deferred are applied
before them. -/
theorem performAll_accepted
    (hcall : calls.map Prod.snd = .transition op (.resolved (.accepted acc)) ::
      after.map .ingestModuleEvent)
    (hsound : RegistrySound s)
    (hscene : Scene acc.terminalEvent identity op events s.records)
    (hident : acc.correlation.identityFor acc.terminalEvent.correlation =
      some identity) (hp : r.pendingModuleName = some acc.terminalEvent.module)
    (hdef : Deferred op acc.terminalEvent.module r early [] s)
    (hafter : ∀ event ∈ after, event ∈ events ∧ Matches acc.terminalEvent identity event)
    (hok : performAll calls s = .ok u s')
    (hrec' : s'.records.find? op = some r') :
    Tells acc.terminalEvent identity
      ((early ++ after).foldl (Outcome.deferred ext acc.terminalEvent identity)
        r.operation.outcome.accepted) r' := by
  obtain ⟨⟨_, _⟩, _, rfl, rfl, hrest⟩ := map_eq_cons_iff.1 hcall
  obtain ⟨_, _, hfirst, hok⟩ := performAll_cons_eq_ok.1 hok
  obtain ⟨_, _, htr, hpure⟩ := bind_ok_iff.1 hfirst
  obtain ⟨-, rfl⟩ := pure_ok_iff.1 hpure
  obtain ⟨⟨r₁, hr, he⟩, rfl, -⟩ := hdef
  have hpending₁ : r₁.pendingModuleName = some acc.terminalEvent.module :=
    (congrArg (·.pendingModuleName) he).trans hp
  rw [foldl_append, ← outcome_of_essence he]
  refine performAll_late hrest (hsound.transition htr) (hscene.transition hsound htr)
    hafter (fun _ hmid => ?_) hok hrec'
  have hrun := hsound.running hr hpending₁
  exact transition_accepted hsound hscene hident hr hrun hpending₁ htr hmid

/-- What two records of an operation have to say about its end is the same. -/
structure SameEnd (record record' : RuntimeOperationRecord ext) : Prop where
  status : record.operation.status = record'.operation.status
  error : record.operation.error = record'.operation.error
  terminalReason : record.operation.terminalReason = record'.operation.terminalReason
  bytesWritten : record.operation.bytesWritten = record'.operation.bytesWritten
  contentLength : record.operation.contentLength = record'.operation.contentLength
  /-- A sweep may have purged the result of one of them. -/
  result : record.operation.result = record'.operation.result ∨
    (record.operation.result = none ∧ record.resultPurged = true) ∨
    (record'.operation.result = none ∧ record'.resultPurged = true)

theorem Shows.sameEnd (h : Shows r outcome) (h' : Shows r' outcome) : SameEnd r r' where
  status := h.status.trans h'.status.symm
  error := h.error.trans h'.error.symm
  terminalReason := h.terminalReason.trans h'.terminalReason.symm
  bytesWritten := h.bytesWritten.trans h'.bytesWritten.symm
  contentLength := h.contentLength.trans h'.contentLength.symm
  result := by
    rcases h.result with hres | hpurge
    · rcases h'.result with hresult' | hpurge'
      · exact .inl (hres.trans hresult'.symm)
      · exact .inr (.inr hpurge')
    · exact .inr (.inl hpurge)

end Runs

/-- **Early module events count like late ones.** After any calls, let an operation wait for a
module and let there be no problem with the way in which the module accepts it. If some of the
events that the module sends about it arrive before it is accepted, its record ends as if all of
them had arrived after that: whatever other operations there are, as long as the events are not for
them, all calls succeed and the journal of the module has room. -/
theorem early_events_like_late (history : List (Readings ext × RegistryCall ext))
    (operationId : Text) (acceptance : ObservableOperationAcceptance)
    (before after : List ModuleEventEnvelope) {state : RegistryState ext}
    (hstate : state = (RegistryState.initial ext).run history)
    {record : RuntimeOperationRecord ext}
    (hrecord : state.records.find? operationId = some record)
    (hpending : record.pendingModuleName = some acceptance.terminalEvent.module)
    (hacceptable : acceptedCorrelationProblem state.records operationId acceptance.correlation
      acceptance.terminalEvent = none)
    (hevents : ∀ event ∈ before ++ after, acceptance.terminalEvent.recognizes event = true ∧
      event.correlationValue acceptance.terminalEvent.correlation =
        acceptance.correlation.identityFor acceptance.terminalEvent.correlation)
    (hothers : ∀ other ∈ state.records, other.operation.operationId ≠ operationId →
      ∀ event ∈ before ++ after, correlatesEvent event other.operation = false)
    (hroom : Room state acceptance.terminalEvent.module before)
    {early late : List (Readings ext × RegistryCall ext)}
    (hearly : early.map Prod.snd = before.map .ingestModuleEvent ++
      .transition operationId (.resolved (.accepted acceptance)) :: after.map .ingestModuleEvent)
    (hlate : late.map Prod.snd = .transition operationId (.resolved (.accepted acceptance)) ::
      (before ++ after).map .ingestModuleEvent)
    {earlyState lateState : RegistryState ext} {earlyRecord lateRecord : RuntimeOperationRecord ext}
    (hearlyOk : performAll early state = .ok () earlyState)
    (hlateOk : performAll late state = .ok () lateState)
    (hearlyRecord : earlyState.records.find? operationId = some earlyRecord)
    (hlateRecord : lateState.records.find? operationId = some lateRecord) :
    SameEnd earlyRecord lateRecord := by
  obtain ⟨identity, hidentity, hdistinct⟩ := acceptedCorrelationProblem_eq_none hacceptable
  have hsound : RegistrySound state := hstate ▸ run_registrySound history
  have hscene :
      Scene acceptance.terminalEvent identity operationId (before ++ after) state.records :=
    ⟨hothers, hdistinct⟩
  have hmatches : ∀ event ∈ before ++ after, Matches acceptance.terminalEvent identity event :=
    fun event hmem => ⟨(hevents event hmem).1, (hevents event hmem).2.trans hidentity⟩
  have hmodule : ∀ event ∈ before ++ after, event.moduleName = acceptance.terminalEvent.module :=
    fun event hmem => (recognizes_moduleName (hevents event hmem).1).symm
  have hstart : ∀ rest, Room state acceptance.terminalEvent.module rest →
      Deferred operationId acceptance.terminalEvent.module record (eventsFor operationId
          (state.pendingModuleEvents.eventsOf acceptance.terminalEvent.module)) rest state :=
    fun _ hrest => ⟨⟨record, hrecord, rfl⟩, rfl, hrest⟩
  have hlateTells := performAll_accepted hlate hsound hscene hidentity hpending
    (hstart [] hroom.nil) (fun event hmem => ⟨hmem, hmatches event hmem⟩) hlateOk hlateRecord
  -- the early events are deferred, and then the operation is accepted
  obtain ⟨_, _, rfl, hdeferring, haccepting⟩ := map_eq_append_iff.1 hearly
  obtain ⟨_, _, hdeferringOk, hacceptingOk⟩ := performAll_append_eq_ok.1 hearlyOk
  obtain ⟨hsound', hscene', hdeferred⟩ := performAll_early hdeferring hsound hscene
    (fun event hmem => ⟨mem_append_left _ hmem, hmodule event (mem_append_left _ hmem)⟩)
    hpending (hstart before hroom) hdeferringOk
  have hearlyTells := performAll_accepted haccepting hsound' hscene' hidentity hpending hdeferred
    (fun event hmem => ⟨mem_append_right _ hmem, hmatches event (mem_append_right _ hmem)⟩)
    hacceptingOk hearlyRecord
  rw [append_assoc] at hearlyTells
  exact hearlyTells.shows.sameEnd hlateTells.shows

end Early

/-! ### Samples -/

/-- An upload that waits for the storage module. -/
def waitingUpload : RegistryState sampleExternals :=
  (RegistryState.initial sampleExternals).run
    ([.insert "upload".toList sampleRequest 1000, .transition "upload".toList .started].map
      fun call => (sampleReadings, call))

def acceptUpload : RegistryCall sampleExternals :=
  .transition "upload".toList (.resolved (.accepted sampleAcceptance))

def uploadProgress : ModuleEventEnvelope := sampleEvent "storageUploadProgress" 10

def uploadDone : ModuleEventEnvelope := sampleEvent "storageUploadDone" 20

theorem waitingUpload_spec : ∃ r, waitingUpload.records.find? "upload".toList = some r ∧
    r.pendingModuleName = some sampleAcceptance.terminalEvent.module ∧
    (∀ other ∈ waitingUpload.records, other.operation.operationId = "upload".toList) ∧
    acceptedCorrelationProblem waitingUpload.records "upload".toList sampleAcceptance.correlation
      sampleAcceptance.terminalEvent = none := by
  have hf : (waitingUpload.records.find? "upload".toList).any (·.pendingModuleName =
      some sampleAcceptance.terminalEvent.module) = true := by decide +kernel
  obtain ⟨r, hr, hp⟩ := (Option.any_eq_true _ _).1 hf
  have hall : waitingUpload.records.records.all (·.operation.operationId = "upload".toList) =
      true := by decide +kernel
  refine ⟨r, hr, of_decide_eq_true hp, fun other ho => ?_, by decide +kernel⟩
  exact of_decide_eq_true (all_eq_true.1 hall other ho)

/-- The upload, with one event before it is accepted and one after. -/
theorem early_events_like_late_upload : ∃ earlyState lateState earlyRecord lateRecord,
      performAll ([.ingestModuleEvent uploadProgress, acceptUpload,
        .ingestModuleEvent uploadDone].map (sampleReadings, ·)) waitingUpload = .ok () earlyState ∧
      performAll ([acceptUpload, .ingestModuleEvent uploadProgress,
        .ingestModuleEvent uploadDone].map (sampleReadings, ·)) waitingUpload = .ok () lateState ∧
      earlyState.records.find? "upload".toList = some earlyRecord ∧
      lateState.records.find? "upload".toList = some lateRecord ∧
      earlyRecord.operation.status = .completed ∧ SameEnd earlyRecord lateRecord := by
  obtain ⟨_, hrecord, hpending, honly, hacceptable⟩ := waitingUpload_spec
  obtain ⟨earlyState, hearly, hearlyAny⟩ := Mutation.exists_of_succeedsWith
    (m := performAll ([.ingestModuleEvent uploadProgress, acceptUpload,
      .ingestModuleEvent uploadDone].map (sampleReadings, ·))) (s := waitingUpload)
    (p := fun state => (state.records.find? "upload".toList).any
      (·.operation.status = .completed)) (by decide +kernel)
  obtain ⟨lateState, hlate, hlateAny⟩ := Mutation.exists_of_succeedsWith
    (m := performAll ([acceptUpload, .ingestModuleEvent uploadProgress,
      .ingestModuleEvent uploadDone].map (sampleReadings, ·))) (s := waitingUpload)
    (p := fun state => (state.records.find? "upload".toList).isSome) (by decide +kernel)
  obtain ⟨earlyRecord, hearlyRecord, hcompleted⟩ := (Option.any_eq_true _ _).1 hearlyAny
  obtain ⟨lateRecord, hlateRecord⟩ := Option.isSome_iff_exists.1 hlateAny
  refine ⟨earlyState, lateState, earlyRecord, lateRecord, hearly, hlate, hearlyRecord, hlateRecord,
    of_decide_eq_true hcompleted, ?_⟩
  exact early_events_like_late _ "upload".toList sampleAcceptance [uploadProgress] [uploadDone]
    rfl hrecord hpending hacceptable (by decide +kernel)
    (fun other hother hne => absurd (honly other hother) hne)
    ⟨by decide +kernel, by decide +kernel⟩ rfl rfl hearly hlate hearlyRecord hlateRecord

/-- A day after the first two calls. -/
def nextDayReadings : Readings sampleExternals :=
  ⟨1000 + terminalRecordMaxAgeMillis, 1000 + terminalRecordMaxAgeMillis,
    fun _ => 1000 + terminalRecordMaxAgeMillis⟩

/-- **The sweeps can tell early events from late ones.** The upload is done, and another event about
it arrives a day later. If it had been accepted before, its record has been kept for a day and is
removed; if it is accepted only then, its record says that it is completed. -/
theorem late_events_expire : ∃ earlyState lateState, (∀ event ∈ [uploadDone, uploadProgress],
        sampleAcceptance.terminalEvent.recognizes event = true ∧
          event.correlationValue sampleAcceptance.terminalEvent.correlation =
            sampleAcceptance.correlation.identityFor sampleAcceptance.terminalEvent.correlation) ∧
      acceptedCorrelationProblem waitingUpload.records "upload".toList sampleAcceptance.correlation
        sampleAcceptance.terminalEvent = none ∧
      Room waitingUpload sampleAcceptance.terminalEvent.module [uploadDone, uploadProgress] ∧
      performAll [(sampleReadings, .ingestModuleEvent uploadDone),
        (nextDayReadings, .ingestModuleEvent uploadProgress), (nextDayReadings, acceptUpload)]
        waitingUpload = .ok () earlyState ∧
      performAll [(sampleReadings, acceptUpload), (sampleReadings, .ingestModuleEvent uploadDone),
        (nextDayReadings, .ingestModuleEvent uploadProgress)] waitingUpload = .ok () lateState ∧
      (earlyState.records.find? "upload".toList).map (·.operation.status) = some .completed ∧
      lateState.records.find? "upload".toList = none := by
  obtain ⟨earlyState, hearly, hearlyStatus⟩ := Mutation.exists_of_succeedsWith
    (m := performAll [(sampleReadings, .ingestModuleEvent uploadDone),
      (nextDayReadings, .ingestModuleEvent uploadProgress), (nextDayReadings, acceptUpload)])
    (s := waitingUpload) (p := fun state => (state.records.find? "upload".toList).map
      (·.operation.status) = some .completed) (by decide +kernel)
  obtain ⟨lateState, hlate, hlateNone⟩ := Mutation.exists_of_succeedsWith
    (m := performAll [(sampleReadings, acceptUpload),
      (sampleReadings, .ingestModuleEvent uploadDone),
      (nextDayReadings, .ingestModuleEvent uploadProgress)])
    (s := waitingUpload) (p := fun state => (state.records.find? "upload".toList).isNone)
    (by decide +kernel)
  exact ⟨earlyState, lateState, by decide +kernel, by decide +kernel,
    ⟨by decide +kernel, by decide +kernel⟩, hearly, hlate, of_decide_eq_true hearlyStatus,
    Option.isNone_iff_eq_none.1 hlateNone⟩

end LogosInspector.Operations
