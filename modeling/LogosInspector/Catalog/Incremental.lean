import LogosInspector.Catalog.Validity

/-!
# The incremental check is as good as the full one

`commitBatchFromSnapshot` trusts a copy of the catalog that was read before, and checks of
the new catalog only the records the batch writes and those that stand in relation to them.
Here it is shown to accept exactly the batches that `commitBatch` accepts
(`commitBatchFromSnapshot_iff_commitBatch`).

The argument has two halves.

* **Counting.** A batch is read as a list of *events*, each adding or removing one piece of
  evidence of one channel (`deltaEvents`); the deltas are the counts of these events
  (`DeltaSpec`), and the number of pieces of evidence of a channel changes by exactly its
  deltas (`evidenceCountOf_afterBatch`).
* **Framing.** When every segment the batch writes is new or a *safe extension* of the old
  one, each old segment lives on with the same floor and a frontier no lower
  (`SegmentsExtend`), so every record the batch does not touch stays valid.
-/

namespace LogosInspector.Catalog

open Table List
open EvidenceDeltas (entry)

/-! ### Deltas -/

/-- The events of a batch: a channel, and whether a piece of its evidence is added or
removed. -/
def deltaEvents (previous : EvidenceTable) (batch : CatalogBatch) : List (Text × Bool) :=
  (batch.upsertEvidence.flatMap fun reference =>
    ((previous.find? reference.evidenceId).toList.map fun old => (old.channelId, false)) ++
      [(reference.channelId, true)]) ++
  batch.deleteEvidenceIds.flatMap fun evidenceId =>
    (previous.find? evidenceId).toList.map fun old => (old.channelId, false)

/-- Record one event. -/
def recordEvent (deltas : EvidenceDeltas) (event : Text × Bool) : CatalogResult EvidenceDeltas :=
  if event.2 then recordEvidenceAddition deltas event.1 else recordEvidenceRemoval deltas event.1

theorem recordPreviousRemoval_eq (prev : EvidenceTable) :
    recordPreviousRemoval prev = fun deltas evidenceId =>
      ((prev.find? evidenceId).toList.map fun old => (old.channelId, false)).foldlM
        recordEvent deltas := by
  funext deltas evidenceId
  unfold recordPreviousRemoval
  cases prev.find? evidenceId with
  | none => rfl
  | some _ =>
    simp only [Option.toList_some, map_cons, map_nil, foldlM_cons,
      foldlM_nil, recordEvent, Bool.false_eq_true, if_false, bind_pure]

theorem foldlM_flatMap {ε α β σ : Type} (f : σ → β → Except ε σ) (g : α → List β) (l : List α)
    (s : σ) :
    (l.flatMap g).foldlM f s = l.foldlM (fun s a => (g a).foldlM f s) s := by
  induction l generalizing s with
  | nil => rfl
  | cons _ _ ih =>
    simp only [flatMap_cons, foldlM_append, foldlM_cons, ih]

/-- The deltas are what recording the events one by one gives. -/
theorem evidenceCountDeltas_eq (prev : EvidenceTable) (batch : CatalogBatch) :
    evidenceCountDeltas prev batch =
      (deltaEvents prev batch).foldlM recordEvent (Table.empty : EvidenceDeltas) := by
  simp only [evidenceCountDeltas, deltaEvents, foldlM_append, foldlM_flatMap,
    recordPreviousRemoval_eq, foldlM_cons, foldlM_nil, bind_pure, recordEvent, if_true]

/-- The number of events of a channel recorded in the deltas. -/
def recorded (deltas : EvidenceDeltas) (event : Text × Bool) : ℕ :=
  if event.2 then (entry deltas event.1).added
  else (entry deltas event.1).removed

theorem entry_channelId (deltas : EvidenceDeltas) (channelId : Text) :
    (entry deltas channelId).channelId = channelId := by
  unfold entry
  cases h : deltas.find? channelId with
  | none => rfl
  | some _ => exact (find?_eq_some.1 h).2

theorem entry_insert (deltas : EvidenceDeltas) (delta : EvidenceCountDelta) (channelId : Text) :
    entry (deltas.insert delta) channelId =
      if channelId = delta.channelId then delta else entry deltas channelId := by
  simp only [entry, find?_insert]
  split_ifs <;> rfl

variable {deltas deltas' start : EvidenceDeltas} {event : Text × Bool} {events : List (Text × Bool)}
  {p : CatalogSnapshot} {held : Option CatalogSnapshot} {batch : CatalogBatch}

theorem recordEvent_eq_ok :
    recordEvent deltas event = .ok deltas' ↔ recorded deltas event + 1 < 2 ^ 64 ∧
      deltas' = deltas.insert (if event.2 then
          { entry deltas event.1 with added := recorded deltas event + 1 }
        else
          { entry deltas event.1 with removed := recorded deltas event + 1 }) := by
  obtain ⟨_, _ | _⟩ := event <;>
    simp only [recordEvent, recordEvidenceRemoval, recordEvidenceAddition, recorded, if_true,
      Bool.false_eq_true, if_false, bind_eq_ok, exists_unit, invalid_eq_ok, pure_eq_ok, not_le,
      eq_comm (a := deltas')]

/-- **What deltas record**: starting from `start`, the events of a list. -/
structure DeltaSpec (start deltas : EvidenceDeltas) (events : List (Text × Bool)) : Prop where
  count : ∀ event, recorded deltas event = recorded start event + events.count event
  key : ∀ channelId, deltas.contains channelId = true ↔
    start.contains channelId = true ∨ ∃ added, (channelId, added) ∈ events

theorem deltaSpec_recordEvent
    (h : recordEvent deltas event = .ok deltas') : DeltaSpec deltas deltas' [event] := by
  obtain ⟨-, rfl⟩ := recordEvent_eq_ok.1 h
  obtain ⟨channelId, b⟩ := event
  have hid := entry_channelId deltas channelId
  refine ⟨fun event => ?_, fun other => ?_⟩
  · obtain ⟨other, c⟩ := event
    by_cases hch : other = channelId
    · subst hch
      cases b <;> cases c <;> simp [recorded, entry_insert, hid]
    · cases b <;> cases c <;> simp [recorded, entry_insert, hid, hch, Ne.symm hch]
  · simp only [Table.contains, find?_insert]
    cases b <;> simp only [if_true, Bool.false_eq_true, if_false, hid] <;>
      by_cases hch : other = channelId <;> simp [hch]

theorem DeltaSpec.trans {d₁ d₂ d₃ : EvidenceDeltas} {l₁ l₂ : List (Text × Bool)}
    (h₁ : DeltaSpec d₁ d₂ l₁) (h₂ : DeltaSpec d₂ d₃ l₂) : DeltaSpec d₁ d₃ (l₁ ++ l₂) := by
  refine ⟨fun _ => ?_, fun _ => ?_⟩
  · rw [h₂.count, h₁.count, count_append]
    omega
  · rw [h₂.key, h₁.key]
    simp only [List.mem_append, exists_or, or_assoc]

theorem deltaSpec_foldlM
    (h : events.foldlM recordEvent start = .ok deltas) : DeltaSpec start deltas events := by
  induction events generalizing start with
  | nil =>
    rw [foldlM_nil, pure_eq_ok] at h
    subst h
    exact ⟨fun _ => rfl, fun _ => by simp⟩
  | cons _ _ ih =>
    rw [foldlM_cons, bind_eq_ok] at h
    obtain ⟨_, hnext, hrest⟩ := h
    exact (deltaSpec_recordEvent hnext).trans (ih hrest)

/-- Recording succeeds when no count gets out of range. -/
theorem foldlM_recordEvent_ok
    (h : ∀ event ∈ events, recorded start event + events.count event < 2 ^ 64) :
    ∃ deltas, events.foldlM recordEvent start = .ok deltas := by
  induction events generalizing start with
  | nil => exact ⟨start, rfl⟩
  | cons event events ih =>
    have hhead := h event mem_cons_self
    rw [count_cons_self] at hhead
    obtain ⟨next, hnext⟩ : ∃ next, recordEvent start event = .ok next :=
      ⟨_, recordEvent_eq_ok.2 ⟨by omega, rfl⟩⟩
    have hsmall : ∀ other ∈ events, recorded next other + events.count other < 2 ^ 64 := by
      intro other ho
      have hnex := (deltaSpec_recordEvent hnext).count other
      have hother' := h other (mem_cons_of_mem _ ho)
      rw [hnex, count_singleton]
      rw [count_cons] at hother'
      omega
    obtain ⟨deltas, hdel⟩ := ih hsmall
    refine ⟨deltas, ?_⟩
    rw [foldlM_cons, bind_eq_ok]
    exact ⟨next, hnext, hdel⟩

@[simp] theorem recorded_empty (event : Text × Bool) :
    recorded (Table.empty : EvidenceDeltas) event = 0 := by
  obtain ⟨_, _ | _⟩ := event <;> rfl

/-! ### Counting evidence -/

theorem evidenceCountOf_eq_countP (evidence : EvidenceTable) (channelId : Text) :
    evidenceCountOf evidence channelId =
      evidence.records.countP (fun reference => reference.channelId = channelId) := by
  rw [evidenceCountOf, countP_eq_length_filter]

theorem evidenceCountOf_pos {evidence : EvidenceTable} {channelId : Text} :
    0 < evidenceCountOf evidence channelId ↔
      ∃ reference ∈ evidence, reference.channelId = channelId := by
  simp only [evidenceCountOf_eq_countP, countP_pos_iff, decide_eq_true_eq, mem_records]

/-- The pieces of evidence that a batch replaces or deletes. -/
def removedEvidence (previous : EvidenceTable) (batch : CatalogBatch) :
    List ZoneEvidenceReference :=
  (batch.upsertEvidence.map ZoneEvidenceReference.evidenceId ++
    batch.deleteEvidenceIds).filterMap previous.find?

theorem count_flatMap_removed (prev : EvidenceTable) (ids : List Text) (channelId : Text) :
    (ids.flatMap fun evidenceId =>
      (prev.find? evidenceId).toList.map fun old => (old.channelId, false)).count
        (channelId, false) =
      (ids.filterMap prev.find?).countP (fun old => old.channelId = channelId) := by
  induction ids with
  | nil => rfl
  | cons evidenceId _ ih =>
    rw [flatMap_cons, count_append, ih, filterMap_cons]
    cases prev.find? evidenceId with
    | none => simp
    | some old =>
      by_cases h : old.channelId = channelId <;> simp [h, Nat.add_comm]

theorem count_removed (prev : EvidenceTable) (batch : CatalogBatch) (channelId : Text) :
    (deltaEvents prev batch).count (channelId, false) =
      (removedEvidence prev batch).countP (fun old => old.channelId = channelId) := by
  have hu : (batch.upsertEvidence.flatMap fun reference =>
      ((prev.find? reference.evidenceId).toList.map fun old => (old.channelId, false)) ++
        [(reference.channelId, true)]).count (channelId, false) =
      ((batch.upsertEvidence.map ZoneEvidenceReference.evidenceId).filterMap
        prev.find?).countP (fun old => old.channelId = channelId) := by
    rw [← count_flatMap_removed]
    induction batch.upsertEvidence with
    | nil => rfl
    | cons _ _ ih =>
      rw [flatMap_cons, count_append, ih, count_append, map_cons, flatMap_cons, count_append]
      simp
  rw [deltaEvents, count_append, hu, count_flatMap_removed, removedEvidence,
    filterMap_append, countP_append]

theorem count_added (prev : EvidenceTable) (batch : CatalogBatch) (channelId : Text) :
    (deltaEvents prev batch).count (channelId, true) =
      batch.upsertEvidence.countP (fun reference => reference.channelId = channelId) := by
  have hr (evidenceId : Text) :
      ((prev.find? evidenceId).toList.map fun old => (old.channelId, false)).count
        (channelId, true) = 0 := by
    refine count_eq_zero.2 fun h => ?_
    obtain ⟨old, -, hold⟩ := mem_map.1 h
    exact absurd hold (by simp)
  have hdel : (batch.deleteEvidenceIds.flatMap fun evidenceId =>
      (prev.find? evidenceId).toList.map fun old => (old.channelId, false)).count
        (channelId, true) = 0 := by
    induction batch.deleteEvidenceIds with
    | nil => rfl
    | cons _ _ ih => rw [flatMap_cons, count_append, ih, hr]
  rw [deltaEvents, count_append, hdel, Nat.add_zero]
  induction batch.upsertEvidence with
  | nil => rfl
  | cons reference _ ih =>
    rw [flatMap_cons, count_append, ih, count_append, hr, countP_cons]
    by_cases h : reference.channelId = channelId <;> simp [h, Nat.add_comm]

section Commit

variable {reference : ZoneEvidenceReference}

theorem mem_removedEvidence :
    reference ∈ removedEvidence p.evidence batch ↔ reference ∈ p.evidence ∧
      (reference.evidenceId ∈ batch.upsertEvidence.map ZoneEvidenceReference.evidenceId ∨
        reference.evidenceId ∈ batch.deleteEvidenceIds) := by
  simp only [removedEvidence, mem_filterMap, List.mem_append, find?_eq_some]
  constructor
  · rintro ⟨_, hid, hm, rfl⟩
    exact ⟨hm, hid⟩
  · rintro ⟨hm, hid⟩
    exact ⟨_, hid, hm, rfl⟩

/-- What a table holds after a batch: what is written, and what is neither replaced nor deleted. -/
theorem RecordKeysOk.mem_iff {α : Type} {key : α → Text} {t : Table key} {upserts : List α}
    {deletes : List Text} {ok : α → Prop} {okKey : Text → Prop}
    (h : RecordKeysOk upserts deletes key ok okKey) {r : α} :
    r ∈ (t.insertAll upserts).eraseAll deletes ↔ r ∈ upserts ∨
      (r ∈ t ∧ ¬ (key r ∈ upserts.map key ∨ key r ∈ deletes)) := by
  rw [mem_eraseAll, mem_insertAll h.upsertKeys]
  have hwrite : r ∈ upserts → key r ∉ deletes :=
    fun hm hd => h.disjoint _ hd (List.mem_map_of_mem hm)
  tauto

theorem ValidSnapshot.count_lt (hp : ValidSnapshot p) (channelId : Text) :
    evidenceCountOf p.evidence channelId < 2 ^ 64 := by
  rcases Nat.eq_zero_or_pos (evidenceCountOf p.evidence channelId) with hz | hz
  · rw [hz]
    decide
  · obtain ⟨reference, hr, rfl⟩ := evidenceCountOf_pos.1 hz
    exact hp.counts reference hr

section

variable (hb : ValidBatch batch)

include hb

theorem mem_evidence_afterBatch :
    reference ∈ (afterBatch p batch).evidence ↔ reference ∈ batch.upsertEvidence ∨
      (reference ∈ p.evidence ∧ ¬ reference ∈ removedEvidence p.evidence batch) := by
  rw [mem_removedEvidence]
  refine hb.evidence.mem_iff.trans ?_
  tauto

theorem nodup_removedEvidence :
    (removedEvidence p.evidence batch).Nodup := by
  have hids : (batch.upsertEvidence.map ZoneEvidenceReference.evidenceId ++
      batch.deleteEvidenceIds).Nodup := by
    refine nodup_append.2 ⟨hb.evidence.upsertKeys, hb.evidence.deleteKeys, ?_⟩
    rintro a ha _ hd rfl
    exact hb.evidence.disjoint a hd ha
  refine hids.filterMap fun _ _ _ ha hb => ?_
  rw [Option.mem_def, find?_eq_some] at ha hb
  exact ha.2.symm.trans hb.2

/-- **The evidence of a channel changes by what the batch adds and removes.** -/
theorem evidenceCountOf_afterBatch (channelId : Text) :
    evidenceCountOf (afterBatch p batch).evidence channelId +
        (deltaEvents p.evidence batch).count (channelId, false) =
      evidenceCountOf p.evidence channelId +
        (deltaEvents p.evidence batch).count (channelId, true) := by
  have hnodup : batch.upsertEvidence.Nodup := hb.evidence.upsertKeys.of_map _
  -- the new records are what is written, and the old ones that are not removed
  have hnew : (afterBatch p batch).evidence.records.Perm (batch.upsertEvidence ++
      p.evidence.records.filter (fun r => r ∉ removedEvidence p.evidence batch)) := by
    refine records_perm (nodup_append.2 ⟨hnodup, p.evidence.nodup.filter _, ?_⟩) fun r => ?_
    · rintro r hr _ hr' rfl
      obtain ⟨hm, hkeep⟩ := List.mem_filter.1 hr'
      exact of_decide_eq_true hkeep (mem_removedEvidence.2 ⟨hm, .inl (List.mem_map_of_mem hr)⟩)
    · rw [mem_evidence_afterBatch hb, List.mem_append, List.mem_filter, mem_records,
        decide_eq_true_eq]
  have hold : p.evidence.records.Perm (removedEvidence p.evidence batch ++
      p.evidence.records.filter (fun r => r ∉ removedEvidence p.evidence batch)) := by
    refine records_perm
      (nodup_append.2 ⟨nodup_removedEvidence hb, p.evidence.nodup.filter _, ?_⟩) fun r => ?_
    · rintro r hr _ hr' rfl
      exact of_decide_eq_true (List.mem_filter.1 hr').2 hr
    · rw [List.mem_append, List.mem_filter, mem_records, decide_eq_true_eq]
      by_cases hr : r ∈ removedEvidence p.evidence batch
      · simp [hr, (mem_removedEvidence.1 hr).1]
      · simp [hr]
  rw [count_removed, count_added, evidenceCountOf_eq_countP, evidenceCountOf_eq_countP,
    hnew.countP_eq, hold.countP_eq, countP_append, countP_append]
  omega

/-- A channel none of whose evidence the batch touches keeps it. -/
theorem mem_evidence_of_noEvent
    (hno : ∀ added, (reference.channelId, added) ∉ deltaEvents p.evidence batch) :
    reference ∈ (afterBatch p batch).evidence ↔ reference ∈ p.evidence := by
  have hadd : reference ∉ batch.upsertEvidence := fun h => by
    have := count_added p.evidence batch reference.channelId
    rw [count_eq_zero.2 (hno true), eq_comm, countP_eq_zero] at this
    exact this reference h (by simp)
  have hr : reference ∉ removedEvidence p.evidence batch := fun h => by
    have := count_removed p.evidence batch reference.channelId
    rw [count_eq_zero.2 (hno false), eq_comm, countP_eq_zero] at this
    exact this reference h (by simp)
  rw [mem_evidence_afterBatch hb]
  simp [hadd, hr]

end

/-- The count that the store has for a channel is right. -/
theorem previousCount_eq (hp : ValidSnapshot p) (channelId : Text) :
    ((p.zones.find? channelId).map ZoneCatalogRecord.evidenceCount).getD 0 =
      evidenceCountOf p.evidence channelId := by
  cases hz : p.zones.find? channelId with
  | some zone =>
    obtain ⟨hm, rfl⟩ := find?_eq_some.1 hz
    exact (hp.zones zone hm).2
  | none =>
    have hno : ¬ 0 < evidenceCountOf p.evidence channelId := fun hpos => by
      obtain ⟨reference, href, hch⟩ := evidenceCountOf_pos.1 hpos
      obtain ⟨zone, hzone, hzch⟩ := hp.known reference href
      exact find?_eq_none.1 hz zone hzone (hzch.trans hch)
    simp only [Option.map_none, Option.getD_none]
    omega

/-! ### Framing -/

/-- Each old segment lives on, with the same floor and a frontier no lower; the frontier of
a segment that is not among the changed ones is the same. -/
structure SegmentExtends (changed : IdSet) (old new : CoverageSegment) : Prop where
  id : new.segmentId = old.segmentId
  floor : new.floor = old.floor
  frontier : old.frontier.slot ≤ new.frontier.slot
  unchanged : new.frontier = old.frontier ∨ changed.contains old.segmentId = true

/-- When the full check is not required, the old segments live on. -/
theorem segmentExtends_afterBatch (hb : ValidBatch batch)
    (hfull : requiresFullValidation p batch = false) {segment : CoverageSegment}
    (hs : segment ∈ p.segments) :
    ∃ new ∈ (afterBatch p batch).segments,
      SegmentExtends (changedSegments p batch) segment new := by
  simp only [requiresFullValidation, Bool.or_eq_false_iff, Bool.not_eq_false',
    List.isEmpty_iff] at hfull
  obtain ⟨hdel, hsafe⟩ := hfull
  by_cases hup : segment.segmentId ∈ batch.upsertSegments.map CoverageSegment.segmentId
  · obtain ⟨new, hnew, hid⟩ := mem_map.1 hup
    have hf : p.segments.find? new.segmentId = some segment := find?_eq_some.2 ⟨hs, hid.symm⟩
    have hext : isSafeSegmentExtension segment new := by
      have := any_eq_false.1 hsafe new hnew
      simpa [hf] using this
    refine ⟨new, hb.segments.mem_iff.2 (.inl hnew), hid, hext.1.symm, ?_, ?_⟩
    · rcases hext.2 with h | h
      · rw [h]
      · exact h.le
    · by_cases hfr : new.frontier = segment.frontier
      · exact .inl hfr
      · refine .inr (contains_insertAll.2 (.inr ?_))
        refine mem_map.2 ⟨new.segmentId, mem_map.2 ⟨new, ?_, rfl⟩, hid⟩
        refine List.mem_filter.2 ⟨hnew, ?_⟩
        simp [hf, hext, Ne.symm hfr]
  · exact ⟨segment, hb.segments.mem_iff.2 (.inr ⟨hs, by simp [hup, hdel]⟩), rfl, rfl, le_rfl,
      .inl rfl⟩

section Frame

variable {changed : IdSet} {segments segments' : SegmentTable}
  (hext : ∀ segment ∈ segments, ∃ new ∈ segments', SegmentExtends changed segment new)

include hext

theorem EvidenceIn.frame (h : EvidenceIn segments reference) :
    EvidenceIn segments' reference := by
  obtain ⟨segment, hs, hid, hfloor, hf⟩ := h.segment
  obtain ⟨new, hnew, hx⟩ := hext segment hs
  refine ⟨h.ok, new, hnew, hx.id.trans hid, ?_, hf.trans hx.frontier⟩
  rw [hx.floor]
  exact hfloor

theorem ZoneIn.frame {evidence evidence' : EvidenceTable} {zone : ZoneCatalogRecord}
    (h : ZoneIn segments evidence zone)
    (hev : ∀ reference ∈ evidence, reference.channelId = zone.channelId →
      reference ∈ evidence') : ZoneIn segments' evidence' zone := by
  obtain ⟨segment, hs, hid, hfloor, hf⟩ := h.segment
  obtain ⟨reference, href, hrid, hch⟩ := h.latest
  obtain ⟨new, hnew, hx⟩ := hext segment hs
  refine ⟨h.ok, ⟨new, hnew, hx.id.trans hid, ?_, hf.trans hx.frontier⟩,
    ⟨reference, hev reference href hch, hrid, hch⟩⟩
  rw [hx.floor]
  exact hfloor

theorem GapIn.frame {gap : CoverageGap} (h : GapIn segments gap)
    (hlow : changed.contains gap.lowerSegmentId = false) : GapIn segments' gap := by
  obtain ⟨lower, hl, hlid, hlf⟩ := h.lower
  obtain ⟨upper, hu, huid, huf, hup⟩ := h.upper
  obtain ⟨lower', hl', hxl⟩ := hext lower hl
  obtain ⟨upper', hu', hxu⟩ := hext upper hu
  refine ⟨h.ok, ⟨lower', hl', hxl.id.trans hlid, ?_⟩, ⟨upper', hu', hxu.id.trans huid, ?_, ?_⟩⟩
  · rcases hxl.unchanged with hf | hc
    · rw [hf, hlf]
    · rw [hlid, hlow] at hc
      exact absurd hc (by decide)
  · rw [hxu.floor, huf]
  · rw [hxu.floor, hup]

end Frame

/-! ### The check of the counts -/

/-- A channel whose evidence or zone the batch touches. -/
def Touched (p : CatalogSnapshot) (batch : CatalogBatch) (channelId : Text) : Prop :=
  (∃ added, (channelId, added) ∈ deltaEvents p.evidence batch) ∨
    channelId ∈ batch.upsertZones.map ZoneCatalogRecord.channelId ∨
    channelId ∈ batch.deleteZoneIds

/-- What the incremental check finds out about a touched channel. -/
def ChannelOk (s : CatalogSnapshot) (channelId : Text) : Prop :=
  (∀ zone ∈ s.zones, zone.channelId = channelId →
    zone.evidenceCount = evidenceCountOf s.evidence channelId ∧ ZoneIn s.segments s.evidence zone) ∧
  ((∀ zone ∈ s.zones, zone.channelId ≠ channelId) → evidenceCountOf s.evidence channelId = 0)

theorem deltaSpec_evidenceCountDeltas (hdel : evidenceCountDeltas p.evidence batch = .ok deltas) :
    DeltaSpec Table.empty deltas (deltaEvents p.evidence batch) :=
  deltaSpec_foldlM ((evidenceCountDeltas_eq _ _).symm.trans hdel)

variable {channelId : Text}

theorem contains_deltas_iff (hdel : evidenceCountDeltas p.evidence batch = .ok deltas) :
    deltas.contains channelId = true ↔
      ∃ added, (channelId, added) ∈ deltaEvents p.evidence batch := by
  rw [(deltaSpec_evidenceCountDeltas hdel).key]
  simp [Table.contains]

theorem mem_touchedZoneCounts (hp : ValidSnapshot p)
    (hdel : evidenceCountDeltas p.evidence batch = .ok deltas) {prev : Text × ℕ} :
    prev ∈ touchedZoneCounts p batch deltas ↔ Touched p batch prev.1 ∧
      prev.2 = evidenceCountOf p.evidence prev.1 := by
  have hkeys : prev.1 ∈ deltas.records.map EvidenceCountDelta.channelId ↔
      ∃ added, (prev.1, added) ∈ deltaEvents p.evidence batch := by
    rw [← contains_deltas_iff hdel, Table.contains_iff, mem_map]
    rfl
  rw [touchedZoneCounts, mem_insertAll_map (fun _ => rfl) (fun _ h => absurd h not_mem_empty),
    mem_map]
  simp only [not_mem_empty, false_or, previousCount_eq hp, List.mem_append, Touched, ← hkeys]
  constructor
  · rintro ⟨_, h, rfl⟩
    exact ⟨or_assoc.1 h, rfl⟩
  · rintro ⟨h, hcnt⟩
    exact ⟨prev.1, or_assoc.2 h, Prod.ext rfl hcnt.symm⟩

theorem count_removed_le (hb : ValidBatch batch) (channelId : Text) :
    (deltaEvents p.evidence batch).count (channelId, false) ≤
      evidenceCountOf p.evidence channelId := by
  rw [count_removed, evidenceCountOf_eq_countP]
  refine List.Subperm.countP_le _ (subperm_of_subset (nodup_removedEvidence hb) ?_)
  exact fun _ h => (mem_removedEvidence.1 h).1

variable {n : ℕ} {zone : ZoneCatalogRecord} {s : CatalogSnapshot}

theorem applyEvidenceDelta_eq_ok {previousCount : ℕ} {delta : EvidenceCountDelta} :
    applyEvidenceDelta previousCount delta = .ok n ↔ delta.removed ≤ previousCount ∧
      previousCount - delta.removed + delta.added < 2 ^ 64 ∧
      n = previousCount - delta.removed + delta.added := by
  simp only [applyEvidenceDelta, bind_eq_ok, exists_unit, invalid_eq_ok, pure_eq_ok, not_lt,
    not_le, eq_comm (a := n)]

/-- The count that the incremental check expects of a channel is the right one. -/
theorem expectedCount_eq_ok (hb : ValidBatch batch)
    (hdel : evidenceCountDeltas p.evidence batch = .ok deltas) :
    expectedZoneCount deltas (channelId, evidenceCountOf p.evidence channelId) = .ok n ↔
    ((∃ added, (channelId, added) ∈ deltaEvents p.evidence batch) →
        evidenceCountOf (afterBatch p batch).evidence channelId < 2 ^ 64) ∧
      n = evidenceCountOf (afterBatch p batch).evidence channelId := by
  have hspec := deltaSpec_evidenceCountDeltas hdel
  have hcnt := evidenceCountOf_afterBatch (p := p) hb channelId
  have hle := count_removed_le (p := p) hb channelId
  rw [← contains_deltas_iff hdel, Table.contains, expectedZoneCount]
  cases hf : deltas.find? channelId with
  | none =>
    have hno (added : Bool) : (deltaEvents p.evidence batch).count (channelId, added) = 0 := by
      have := hspec.count (channelId, added)
      cases added <;> simpa [recorded, entry, hf] using this.symm
    rw [hno, hno] at hcnt
    simp only [Nat.add_zero] at hcnt
    simp only [pure_eq_ok, Option.isSome_none, Bool.false_eq_true, false_implies, true_and, hcnt]
    exact eq_comm
  | some delta =>
    have hr : delta.removed = (deltaEvents p.evidence batch).count (channelId, false) := by
      simpa [recorded, entry, hf] using hspec.count (channelId, false)
    have hadd : delta.added = (deltaEvents p.evidence batch).count (channelId, true) := by
      simpa [recorded, entry, hf] using hspec.count (channelId, true)
    rw [applyEvidenceDelta_eq_ok, hr, hadd]
    simp only [Option.isSome_some, forall_const]
    omega

/-- The check of one touched channel. -/
theorem validateZoneCount_eq_ok (hb : ValidBatch batch)
    (hdel : evidenceCountDeltas p.evidence batch = .ok deltas) :
    validateZoneCount (afterBatch p batch) deltas
        (channelId, evidenceCountOf p.evidence channelId) = .ok () ↔
      ((∃ added, (channelId, added) ∈ deltaEvents p.evidence batch) →
        evidenceCountOf (afterBatch p batch).evidence channelId < 2 ^ 64) ∧
      ChannelOk (afterBatch p batch) channelId := by
  rw [validateZoneCount, bind_eq_ok]
  simp only [expectedCount_eq_ok hb hdel]
  set n := evidenceCountOf (afterBatch p batch).evidence channelId
  constructor
  · rintro ⟨_, ⟨hlt, rfl⟩, h⟩
    refine ⟨hlt, ?_⟩
    cases hz : (afterBatch p batch).zones.find? channelId with rw [hz] at h
    | some zone =>
      simp only [bind_eq_ok, exists_unit, persistedInvariant_eq_ok, not_not,
        validateZoneRelationship_eq_ok] at h
      obtain ⟨hm, hid⟩ := find?_eq_some.1 hz
      refine ⟨fun zone' hz' hid' => ?_, fun hno => absurd hid (hno zone hm)⟩
      rw [eq_of_key_eq hz' hm (hid'.trans hid.symm)]
      exact h
    | none =>
      simp only [persistedInvariant_eq_ok, not_not] at h
      exact ⟨fun zone' hz' hid' => absurd hid' (find?_eq_none.1 hz zone' hz'), fun _ => h⟩
  · rintro ⟨hlt, hzone, hmissing⟩
    refine ⟨n, ⟨hlt, rfl⟩, ?_⟩
    cases hz : (afterBatch p batch).zones.find? channelId with
    | some zone =>
      obtain ⟨hm, hid⟩ := find?_eq_some.1 hz
      simpa [validateZoneRelationship_eq_ok] using hzone zone hm hid
    | none => simpa using hmissing (find?_eq_none.1 hz)

/-! ### The two checks agree -/

/-- What the incremental check checks, when it is not the full one. -/
structure IncrementalOk (p : CatalogSnapshot) (batch : CatalogBatch) : Prop where
  head : HeadOk (afterBatch p batch).metadata batch.frontier batch.traversal
  evidence : ∀ reference ∈ batch.upsertEvidence, EvidenceIn (afterBatch p batch).segments reference
  gaps : ∀ gap ∈ batch.upsertGaps, GapIn (afterBatch p batch).segments gap
  moved : ∀ gap ∈ (afterBatch p batch).gaps,
    (changedSegments p batch).contains gap.lowerSegmentId = true →
      GapIn (afterBatch p batch).segments gap
  channels : ∀ channelId, Touched p batch channelId → ChannelOk (afterBatch p batch) channelId
  counts : ∀ channelId added, (channelId, added) ∈ deltaEvents p.evidence batch →
    evidenceCountOf (afterBatch p batch).evidence channelId < 2 ^ 64

theorem evidenceCountOf_untouched (hb : ValidBatch batch)
    (hno : ¬ ∃ added, (channelId, added) ∈ deltaEvents p.evidence batch) :
    evidenceCountOf (afterBatch p batch).evidence channelId =
      evidenceCountOf p.evidence channelId := by
  have hzero (added : Bool) : (deltaEvents p.evidence batch).count (channelId, added) = 0 :=
    count_eq_zero.2 fun h => hno ⟨added, h⟩
  have hcnt := evidenceCountOf_afterBatch (p := p) hb channelId
  rw [hzero, hzero] at hcnt
  exact hcnt

variable (hp : ValidSnapshot p)

include hp

/-- **The incremental check suffices**: what it does not look at has not changed. -/
theorem IncrementalOk.validSnapshot (hb : ValidBatch batch)
    (hfull : requiresFullValidation p batch = false) (h : IncrementalOk p batch) :
    ValidSnapshot (afterBatch p batch) := by
  have hext := fun segment (hs : segment ∈ p.segments) => segmentExtends_afterBatch hb hfull hs
  have hcounted (channelId : Text) (hno : ¬ Touched p batch channelId) :
      ¬ ∃ added, (channelId, added) ∈ deltaEvents p.evidence batch := fun he => hno (.inl he)
  refine ⟨h.head, ?_, ?_, ?_, ?_, ?_, ?_⟩
  · intro segment hs
    rcases hb.segments.mem_iff.1 hs with hs | ⟨hs, -⟩
    · exact hb.segments.upsertsOk segment hs
    · exact hp.segments segment hs
  · intro reference hr
    rcases (mem_evidence_afterBatch hb).1 hr with hr | ⟨hr, -⟩
    · exact h.evidence reference hr
    · exact (hp.evidence reference hr).frame hext
  · intro reference hr
    by_cases he : ∃ added, (reference.channelId, added) ∈ deltaEvents p.evidence batch
    · obtain ⟨added, he⟩ := he
      exact h.counts _ added he
    · rw [evidenceCountOf_untouched hb he]
      exact hp.counts reference ((mem_evidence_of_noEvent hb fun a ha => he ⟨a, ha⟩).1 hr)
  · intro zone hz
    by_cases ht : Touched p batch zone.channelId
    · obtain ⟨hcount, hin⟩ := (h.channels _ ht).1 zone hz rfl
      exact ⟨hin, hcount⟩
    · obtain ⟨hzp, -⟩ := (hb.zones.mem_iff.1 hz).resolve_left fun hu =>
        ht (.inr (.inl (List.mem_map_of_mem hu)))
      obtain ⟨hin, hcount⟩ := hp.zones zone hzp
      refine ⟨hin.frame hext fun reference hr hch => ?_, ?_⟩
      · refine (mem_evidence_of_noEvent hb fun a ha => ?_).2 hr
        exact ht (.inl ⟨a, hch ▸ ha⟩)
      · rw [hcount, evidenceCountOf_untouched hb (hcounted _ ht)]
  · intro reference hr
    have hpos : 0 < evidenceCountOf (afterBatch p batch).evidence reference.channelId :=
      evidenceCountOf_pos.2 ⟨reference, hr, rfl⟩
    by_cases ht : Touched p batch reference.channelId
    · by_contra hno
      have hzero := (h.channels _ ht).2 fun zone hz hid => hno ⟨zone, hz, hid⟩
      omega
    · rw [evidenceCountOf_untouched hb (hcounted _ ht)] at hpos
      obtain ⟨old, hold, hch⟩ := evidenceCountOf_pos.1 hpos
      obtain ⟨zone, hz, hid⟩ := hp.known old hold
      refine ⟨zone, hb.zones.mem_iff.2 (.inr ⟨hz, fun hwrite => ht ?_⟩), hid.trans hch⟩
      exact .inr (hch ▸ hid ▸ hwrite)
  · intro gap hg
    rcases hb.gaps.mem_iff.1 hg with hu | ⟨hold, -⟩
    · exact h.gaps gap hu
    · cases hc : (changedSegments p batch).contains gap.lowerSegmentId with
      | true => exact h.moved gap hg hc
      | false => exact (hp.gaps gap hold).frame hext hc

omit hp in
/-- The incremental check is part of the full one. -/
theorem ValidSnapshot.incrementalOk (hb : ValidBatch batch)
    (h : ValidSnapshot (afterBatch p batch)) : IncrementalOk p batch := by
  refine ⟨h.head, fun reference hr => h.evidence _ ((mem_evidence_afterBatch hb).2 (.inl hr)),
    fun gap hg => h.gaps gap (hb.gaps.mem_iff.2 (.inl hg)), fun gap hg _ => h.gaps gap hg,
    fun channelId _ => ?_, fun channelId _ _ => h.count_lt channelId⟩
  refine ⟨fun zone hz hid => ?_, fun hno => ?_⟩
  · subst hid
    exact ⟨(h.zones zone hz).2, (h.zones zone hz).1⟩
  · by_contra hne
    obtain ⟨reference, hr, hch⟩ := evidenceCountOf_pos.1 (Nat.pos_of_ne_zero hne)
    obtain ⟨zone, hz, hid⟩ := h.known reference hr
    exact hno zone hz (hid.trans hch)

/-- The deltas of a batch whose counts are in range are computed without overflow. -/
theorem evidenceCountDeltas_ok (hb : ValidBatch batch) (h : ValidSnapshot (afterBatch p batch)) :
    ∃ deltas, evidenceCountDeltas p.evidence batch = .ok deltas := by
  rw [evidenceCountDeltas_eq]
  refine foldlM_recordEvent_ok ?_
  rintro ⟨channelId, added⟩ -
  have hcnt := evidenceCountOf_afterBatch (p := p) hb channelId
  have hle := count_removed_le (p := p) hb channelId
  have hold := hp.count_lt channelId
  have hnew := h.count_lt channelId
  rw [recorded_empty]
  cases added <;> omega

/-- **The two checks agree** on every batch that passes the checks on its own. -/
theorem validateIncrementalSnapshot_eq_ok (hb : ValidBatch batch)
    (hdel : evidenceCountDeltas p.evidence batch = .ok deltas) :
    validateIncrementalSnapshot (afterBatch p batch) batch
      { requiresFullSnapshotValidation := requiresFullValidation p batch
        changedSegmentIds := changedSegments p batch
        evidenceDeltas := deltas
        previousZoneCounts := touchedZoneCounts p batch deltas } = .ok () ↔
      ValidSnapshot (afterBatch p batch) := by
  unfold validateIncrementalSnapshot
  cases hfull : requiresFullValidation p batch with
  | true => simp only [if_true, validSnapshot_iff]
  | false =>
    have hzone : (∀ prev ∈ touchedZoneCounts p batch deltas,
        validateZoneCount (afterBatch p batch) deltas prev = .ok ()) ↔
        ∀ channelId, Touched p batch channelId →
          ((∃ added, (channelId, added) ∈ deltaEvents p.evidence batch) →
            evidenceCountOf (afterBatch p batch).evidence channelId < 2 ^ 64) ∧
          ChannelOk (afterBatch p batch) channelId := by
      constructor
      · intro h channelId ht
        exact (validateZoneCount_eq_ok hb hdel).1
          (h _ ((mem_touchedZoneCounts hp hdel).2 ⟨ht, rfl⟩))
      · rintro h ⟨channelId, count⟩ hm
        obtain ⟨ht, hcnt⟩ := (mem_touchedZoneCounts hp hdel).1 hm
        have hcnt' : count = evidenceCountOf p.evidence channelId := hcnt
        rw [hcnt']
        exact (validateZoneCount_eq_ok hb hdel).2 (h channelId ht)
    simp only [Bool.false_eq_true, if_false, bind_eq_ok, exists_unit,
      validateSnapshotHead_eq_ok, forM_eq_ok, validateEvidenceRelationship_eq_ok,
      validateGapRelationship_eq_ok, List.mem_filter, mem_records, and_imp, hzone]
    constructor
    · rintro ⟨hhead, hev, hgaps, hmove, hch⟩
      refine IncrementalOk.validSnapshot hp hb hfull
        ⟨hhead, hev, hgaps, hmove, fun c ht => (hch c ht).2, fun c added he => ?_⟩
      exact (hch c (.inl ⟨added, he⟩)).1 ⟨added, he⟩
    · intro h
      have hi := h.incrementalOk hb
      refine ⟨hi.head, hi.evidence, hi.gaps, hi.moved, fun c ht => ⟨?_, hi.channels c ht⟩⟩
      rintro ⟨added, he⟩
      exact hi.counts c added he

omit hp in
theorem applySnapshotRecords_eq {α : Type} {key : α → Text} {t : Table key}
    {upserts : List α} {deletes : List Text} {ok : α → Prop} {okKey : Text → Prop}
    (h : RecordKeysOk upserts deletes key ok okKey) :
    applySnapshotRecords t upserts deletes = (t.insertAll upserts).eraseAll deletes := by
  unfold applySnapshotRecords
  split_ifs with hnil
  · rw [hnil.1, hnil.2]
    rfl
  · exact (eraseAll_insertAll h.upsertKeys h.disjoint).symm

/-- The held copy after a batch is the catalog that the batch leads to. -/
theorem applyBatchToSnapshot_eq_ok (hb : ValidBatch batch) :
    applyBatchToSnapshot p (afterBatch p batch).metadata batch = .ok s ↔
      p.metadata.catalogRevision = batch.expectedCatalogRevision ∧
      ValidSnapshot (afterBatch p batch) ∧ s = afterBatch p batch := by
  simp only [applyBatchToSnapshot, prepareIncrementalValidation, bind_eq_ok, exists_unit,
    reject_eq_ok, not_not, pure_eq_ok, applySnapshotRecords_eq hb.zones,
    applySnapshotRecords_eq hb.evidence, applySnapshotRecords_eq hb.segments,
    applySnapshotRecords_eq hb.gaps]
  constructor
  · rintro ⟨hrev, _, ⟨deltas, hdel, rfl⟩, hcheck, rfl⟩
    exact ⟨hrev, (validateIncrementalSnapshot_eq_ok hp hb hdel).1 hcheck, rfl⟩
  · rintro ⟨hrev, hv, rfl⟩
    obtain ⟨deltas, hdel⟩ := evidenceCountDeltas_ok hp hb hv
    exact ⟨hrev, _, ⟨deltas, hdel, rfl⟩, (validateIncrementalSnapshot_eq_ok hp hb hdel).2 hv, rfl⟩

theorem commitTransaction_held_eq_ok {staged : CatalogSnapshot} :
    commitTransaction p (some p) batch = .ok (staged, s) ↔
      commitTransaction p none batch = .ok (staged, s) := by
  simp only [commitTransaction, bind_eq_ok, exists_unit, validBatch_iff, nextMetadata_eq_ok,
    mapError_eq_ok, readSnapshot, validSnapshot_iff, pure_eq_ok, Prod.mk.injEq]
  constructor
  · rintro ⟨hb, _, ⟨h₁, h₂, h₃, h₄, rfl⟩, _, happly, rfl, rfl⟩
    obtain ⟨-, hv, rfl⟩ := (applyBatchToSnapshot_eq_ok hp hb).1 happly
    exact ⟨hb, _, ⟨h₁, h₂, h₃, h₄, rfl⟩, _, ⟨hv, rfl⟩, rfl, rfl⟩
  · rintro ⟨hb, _, ⟨h₁, h₂, h₃, h₄, rfl⟩, _, ⟨hv, rfl⟩, rfl, rfl⟩
    exact ⟨hb, _, ⟨h₁, h₂, h₃, h₄, rfl⟩, _,
      (applyBatchToSnapshot_eq_ok hp hb).2 ⟨h₂, hv, rfl⟩, rfl, rfl⟩

end Commit

/-- A transaction that fails leaves the database as it was. -/
theorem runTransaction_error
    {e : CatalogError} (h : (runTransaction p held batch).2 = .error e) :
    (runTransaction p held batch).1 = p := by
  unfold runTransaction at h ⊢
  cases hc : commitTransaction p held batch with
  | error _ => rfl
  | ok _ =>
    rw [hc] at h
    cases h

theorem runTransaction_ok {s : CatalogSnapshot} : (runTransaction p held batch).2 = .ok s ↔
      ∃ staged, commitTransaction p held batch = .ok (staged, s) ∧
        (runTransaction p held batch).1 = staged := by
  unfold runTransaction
  cases hc : commitTransaction p held batch with
  | error _ => simp
  | ok r =>
    obtain ⟨_, _⟩ := r
    simp

/-- **Incremental commit equals full commit.** On a stored catalog that passes the check,
the two ways to commit a batch accept the same batches; on success they return the same
catalog, of the next revision, which is what the database then holds and a reader then gets;
on failure the database is unchanged. -/
theorem commitBatchFromSnapshot_iff_commitBatch (p : CatalogSnapshot)
    (hp : validateSnapshot p = .ok ()) (batch : CatalogBatch) :
    (∀ s, (commitBatchFromSnapshot p p batch).2 = .ok s ↔ (commitBatch p batch).2 = .ok s) ∧
    (∀ s, (commitBatch p batch).2 = .ok s →
      s.metadata.catalogRevision = p.metadata.catalogRevision + 1 ∧
      readSnapshot (commitBatch p batch).1 = .ok s ∧
      readSnapshot (commitBatchFromSnapshot p p batch).1 = .ok s) ∧
    (∀ e, (commitBatch p batch).2 = .error e → (commitBatch p batch).1 = p) ∧
    (∀ e, (commitBatchFromSnapshot p p batch).2 = .error e →
      (commitBatchFromSnapshot p p batch).1 = p) := by
  have hvalid := validSnapshot_iff.1 hp
  have hiff (s : CatalogSnapshot) :
      (commitBatchFromSnapshot p p batch).2 = .ok s ↔ (commitBatch p batch).2 = .ok s := by
    rw [commitBatchFromSnapshot, commitBatch, runTransaction_ok, runTransaction_ok]
    constructor
    · rintro ⟨staged, hc, -⟩
      have hc' := (commitTransaction_held_eq_ok hvalid).1 hc
      exact ⟨staged, hc', by rw [runTransaction, hc']⟩
    · rintro ⟨staged, hc, -⟩
      have hc' := (commitTransaction_held_eq_ok hvalid).2 hc
      exact ⟨staged, hc', by rw [runTransaction, hc']⟩
  refine ⟨hiff, fun _ hs => ?_, fun e => runTransaction_error, fun _ => runTransaction_error⟩
  obtain ⟨-, -, -, -, -, hafter, rfl⟩ := committed_iff.1 hs
  obtain ⟨staged, hc, hstaged⟩ := runTransaction_ok.1 hs
  -- what the full commit stages is what it reads back
  have heq : staged = afterBatch p batch := by
    simp only [commitTransaction, bind_eq_ok, pure_eq_ok, Prod.mk.injEq, mapError_eq_ok,
      readSnapshot] at hc
    obtain ⟨-, -, _, -, _, ⟨-, -, rfl⟩, rfl, h⟩ := hc
    exact h
  have hread : readSnapshot (afterBatch p batch) = .ok (afterBatch p batch) := by
    simp only [readSnapshot, bind_eq_ok, exists_unit, pure_eq_ok, and_true]
    exact validSnapshot_iff.2 hafter
  have hfull : (commitBatch p batch).1 = afterBatch p batch := hstaged.trans heq
  have hi : (commitBatchFromSnapshot p p batch).1 = afterBatch p batch := by
    have hc' := (commitTransaction_held_eq_ok hvalid).2 hc
    rw [commitBatchFromSnapshot, runTransaction, hc']
    exact heq
  exact ⟨rfl, by rw [hfull, hread], by rw [hi, hread]⟩

/-- A batch that extends a segment up to a slot, with one piece of evidence there. -/
def sampleBatch (revision slot : ℕ) (id channel : Char) : CatalogBatch where
  expectedCatalogRevision := revision
  updatedAtUnix := slot
  upsertZones := [
    { channelId := sampleId channel
      observedLabel := none
      l1Channel := ⟨some slot, none, some 9, none, none, none, 1, .final⟩
      sequencerCommittee := none
      classification := ⟨1, 0, 0, false⟩
      firstSeenSlot := slot
      lastSeenSlot := slot
      latestEvidenceId := [channel]
      evidenceCount := 1
      snapshotProvenance := ⟨.replayDerived, "segment".toList, slot, 1⟩
      updatedAtUnix := slot }]
  deleteZoneIds := []
  upsertEvidence := [
    ⟨[channel], sampleId channel, "segment".toList, slot, sampleId id, some (sampleId 'd'), 0,
      none, .channelOperation, .replayContribution⟩]
  deleteEvidenceIds := []
  upsertSegments := [
    ⟨"segment".toList, ⟨0, sampleId '0', sampleId 'f'⟩, ⟨slot, sampleId id⟩, false⟩]
  deleteSegmentIds := []
  upsertGaps := []
  deleteGapIds := []
  frontier := none
  traversal := some ⟨some ⟨9, sampleId '9'⟩, some ⟨slot, sampleId id⟩⟩

/-- A catalog with one segment, one Zone and its evidence. -/
def sampleCatalog : CatalogSnapshot :=
  afterBatch (newCatalog sampleMetadata) (sampleBatch 0 3 '3' 'c')

/-- A batch about another Zone is committed on the catalog, both ways alike, and leaves the first
Zone in it. -/
theorem commitBatchFromSnapshot_sample : validateSnapshot sampleCatalog = .ok () ∧
    ∃ s, (commitBatchFromSnapshot sampleCatalog sampleCatalog (sampleBatch 1 5 '5' 'e')).2 = .ok s ∧
      (commitBatch sampleCatalog (sampleBatch 1 5 '5' 'e')).2 = .ok s ∧
      s.zones.records.map (·.channelId) = [sampleId 'c', sampleId 'e'] := by
  have hvalid : validateSnapshot sampleCatalog = .ok () := by decide +kernel
  have hcommit : (commitBatch sampleCatalog (sampleBatch 1 5 '5' 'e')).2 =
      .ok (afterBatch sampleCatalog (sampleBatch 1 5 '5' 'e')) := by decide +kernel
  refine ⟨hvalid, _, ?_, hcommit, by decide +kernel⟩
  exact ((commitBatchFromSnapshot_iff_commitBatch _ hvalid _).1 _).2 hcommit

end LogosInspector.Catalog
