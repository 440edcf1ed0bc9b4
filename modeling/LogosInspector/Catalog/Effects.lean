import LogosInspector.Catalog.Run

/-!
# What a step does

A step of the engine is one of nine *effects* on the catalog. Each is described by a
structure that says under which conditions it happens and what it leaves, table by table:

* `Retargets` – the target is set;
* `Extends` – blocks are read at the end of the highest segment;
* `Starts` – a first segment is read, from slot `0`;
* `OpensGap` – a segment is read above a gap;
* `OpensPrefix` – a first segment is read, above a missing prefix;
* `RepairsPrefix` – blocks are read below the first segment;
* `Merges` – the blocks of a gap are read, and two segments become one;
* `Shrinks` – blocks are read at the upper end of a gap;
* `BacksOff` – an attempt at a gap has found nothing.

That every batch the engine proposes has one of these effects is `Proposes.effect`. What is
proved of runs is proved effect by effect, and no later proof unfolds the engine.
-/

namespace LogosInspector.Catalog

open List Table
open WorkingCatalog (fromSnapshot)

open Option (some_inj)

/-! ### What reading blocks leaves alone -/

/-- Two working copies with the same coverage. -/
structure SameCoverage (w w' : WorkingCatalog) : Prop where
  frontier : w'.frontier = w.frontier
  traversal : w'.traversal = w.traversal
  segments : w'.segments = w.segments
  gaps : w'.gaps = w.gaps

theorem SameCoverage.refl (w : WorkingCatalog) : SameCoverage w w := ⟨rfl, rfl, rfl, rfl⟩

variable {w : WorkingCatalog}

theorem SameCoverage.trans {v u : WorkingCatalog} (h : SameCoverage w v) (h' : SameCoverage v u) :
    SameCoverage w u :=
  ⟨h'.frontier.trans h.frontier, h'.traversal.trans h.traversal,
    h'.segments.trans h.segments, h'.gaps.trans h.gaps⟩

variable {w' : WorkingCatalog}

theorem insertEvidence_sameCoverage {e : ZoneEvidenceReference} {isNew : Bool}
    (h : insertEvidence w e = .ok (w', isNew)) : SameCoverage w w' := by
  unfold insertEvidence at h
  split at h
  · split_ifs at h
    cases h
    exact SameCoverage.refl w
  · cases h
    exact ⟨rfl, rfl, rfl, rfl⟩

variable {segmentId : Text} {targetSlot : ℕ} {context : CatalogEngineContext} {s : CatalogSnapshot}
  {batch : CatalogBatch}

theorem ingestObservation_sameCoverage {block : CatalogL1Block}
    {observation : ChannelObservation}
    (h : ingestObservation block segmentId targetSlot context w observation = .ok w') :
    SameCoverage w w' := by
  simp only [ingestObservation, bind_eq_ok] at h
  obtain ⟨⟨w₁, _⟩, h₁, w₂, h₂, h⟩ := h
  have hc : SameCoverage w₁ w₂ := by
    unfold insertCreation at h₂
    split_ifs at h₂
    · rw [map_eq_ok] at h₂
      obtain ⟨⟨_, _⟩, h₃, rfl⟩ := h₂
      exact insertEvidence_sameCoverage h₃
    · rw [pure_eq_ok] at h₂
      exact h₂ ▸ SameCoverage.refl _
  refine ((insertEvidence_sameCoverage h₁).trans hc).trans ?_
  split_ifs at h
  · rw [pure_eq_ok] at h
    exact h ▸ SameCoverage.refl _
  · rw [pure_eq_ok] at h
    exact h ▸ ⟨rfl, rfl, rfl, rfl⟩

theorem recomputeZoneRecords_sameCoverage {channels : IdSet}
    (h : recomputeZoneRecords w channels targetSlot context = .ok w') : SameCoverage w w' := by
  refine foldlM_induction (P := SameCoverage w) h (SameCoverage.refl w) fun _ _ _ _ hv hstep => ?_
  simp only [recomputeZoneRecord, bind_eq_ok, required_eq_ok, pure_eq_ok] at hstep
  obtain ⟨_, -, _, -, rfl⟩ := hstep
  exact hv.trans ⟨rfl, rfl, rfl, rfl⟩

/-- Reading blocks edits zones and evidence only. -/
theorem ingestBlocks_sameCoverage {ext : Externals} {blocks : List CatalogL1Block}
    (h : ingestBlocks ext w blocks segmentId context = .ok w') : SameCoverage w w' := by
  simp only [ingestBlocks, bind_eq_ok] at h
  obtain ⟨_, -, ⟨_, _⟩, hfold, hrec⟩ := h
  refine SameCoverage.trans ?_ (recomputeZoneRecords_sameCoverage hrec)
  refine foldlM_induction (P := fun s => SameCoverage w s.1) hfold (SameCoverage.refl w)
    fun s _ _ _ hstate hblk => ?_
  simp only [ingestBlock, bind_eq_ok] at hblk
  obtain ⟨_, -, hobservation⟩ := hblk
  refine foldlM_induction (P := fun s => SameCoverage w s.1) hobservation hstate
    fun _ _ _ _ hst ho => ?_
  simp only [bind_eq_ok, pure_eq_ok] at ho
  obtain ⟨_, hu, rfl⟩ := ho
  exact hst.trans (ingestObservation_sameCoverage hu)

/-- So does moving the evidence of a segment. -/
theorem reassignSegment_sameCoverage {old new : Text}
    (h : reassignSegment w old new context = .ok w') :
    SameCoverage w w' := by
  simp only [reassignSegment, bind_eq_ok] at h
  obtain ⟨_, -, hrec⟩ := h
  have hs := recomputeZoneRecords_sameCoverage hrec
  exact ⟨hs.frontier, hs.traversal, hs.segments, hs.gaps⟩

/-! ### From the working copy to the catalog -/

/-- The metadata after a step. -/
def stampedMetadata (s : CatalogSnapshot) (context : CatalogEngineContext) : CatalogMetadata :=
  { s.metadata with
    catalogRevision := s.metadata.catalogRevision + 1
    updatedAtUnix := context.updatedAtUnix }

/-- The catalog that a working copy stands for. -/
def WorkingCatalog.toSnapshot (w : WorkingCatalog) (metadata : CatalogMetadata) :
    CatalogSnapshot where
  metadata := metadata
  frontier := w.frontier
  traversal := w.traversal
  zones := w.zones
  evidence := w.evidence
  segments := w.segments
  gaps := w.gaps

theorem diff_eq {α : Type} [DecidableEq α] {key : α → Text} (before after : Table key) :
    (before.insertAll (Table.upserts before after)).eraseAll (Table.deletes before after) =
      after := by
  rw [eraseAll_insertAll (nodup_upserts before after)]
  · exact Table.applyDiff before after
  · intro _ hk hu
    obtain ⟨_, hr, rfl⟩ := mem_map.1 hu
    exact disjoint_upserts_deletes before after hr hk

/-- **The batch of a working copy leads to the tables of the working copy.** -/
theorem afterBatch_intoBatch (h : w.intoBatch s context = some batch) :
    afterBatch s batch = w.toSnapshot (stampedMetadata s context) := by
  simp only [WorkingCatalog.intoBatch, Option.ite_none_right_eq_some, some_inj] at h
  obtain ⟨-, rfl⟩ := h
  simp only [afterBatch, applyBatchRecords, diff_eq, WorkingCatalog.toSnapshot, stampedMetadata]

/-- **What is stored is the working copy**, once its batch is committed; and there is no batch just
if the working copy is the catalog itself. -/
theorem committed_eq_working :
    (∀ batch s', w.intoBatch s context = some batch → Committed s batch s' →
      s' = w.toSnapshot (stampedMetadata s context)) ∧
    (w.intoBatch s context = none ↔ w.toSnapshot s.metadata = s) := by
  refine ⟨fun _ _ hbatch hcommitted => ?_, fun hnone => ?_, fun heq => ?_⟩
  · rw [← afterBatch_intoBatch hbatch]
    exact (committed_iff.1 hcommitted).2.2.2.2.2.2
  · simp only [WorkingCatalog.intoBatch, ite_eq_right_iff, reduceCtorEq, imp_false, not_or,
      not_not] at hnone
    have hzones := diff_eq s.zones w.zones
    have hevidence := diff_eq s.evidence w.evidence
    have hsegments := diff_eq s.segments w.segments
    have hgaps := diff_eq s.gaps w.gaps
    simp only [hnone, insertAll, eraseAll, foldl_nil] at hzones hevidence hsegments hgaps
    simp only [WorkingCatalog.toSnapshot, ← hzones, ← hevidence, ← hsegments, ← hgaps, hnone]
  · rw [← heq]
    simp [WorkingCatalog.intoBatch, WorkingCatalog.toSnapshot, eq_nil_iff_forall_not_mem,
      mem_upserts, mem_deletes]

/-- The working copy of a new catalog, once a first block with an inscription is read. -/
def sampleReading : WorkingCatalog :=
  (ingestBlocks sampleExternals
    { WorkingCatalog.fromSnapshot (newCatalog sampleMetadata) with
      traversal := some ⟨some ⟨9, sampleId '9'⟩, some ⟨0, sampleId '0'⟩⟩
      segments := Table.empty.insert
        ⟨"segment".toList, ⟨0, sampleId '0', sampleId 'f'⟩, ⟨0, sampleId '0'⟩, false⟩ }
    [sampleBlockOf 0 '0' 'f' [sampleInscription 'c' '0' "A"]] "segment".toList
    sampleContext).toOption.getD (WorkingCatalog.fromSnapshot (newCatalog sampleMetadata))

/-- The Zone of the inscription is in the stored catalog. -/
theorem committed_eq_working_sample : ∃ batch s',
    sampleReading.intoBatch (newCatalog sampleMetadata) sampleContext = some batch ∧
    Committed (newCatalog sampleMetadata) batch s' ∧
    s' = sampleReading.toSnapshot (stampedMetadata (newCatalog sampleMetadata) sampleContext) ∧
    s'.zones.records.map (·.channelId) = [sampleId 'c'] ∧ s'.evidence.size = 2 := by
  have hcommits : (sampleReading.intoBatch (newCatalog sampleMetadata) sampleContext).any
      (fun batch => (commitBatch (newCatalog sampleMetadata) batch).2 =
        .ok (afterBatch (newCatalog sampleMetadata) batch)) = true := by decide +kernel
  simp only [Option.any_eq_true, decide_eq_true_eq] at hcommits
  obtain ⟨batch, hbatch, hcommitted⟩ := hcommits
  have heq := committed_eq_working.1 batch _ hbatch hcommitted
  refine ⟨batch, _, hbatch, hcommitted, heq, ?_⟩
  rw [heq]
  decide +kernel

/-! ### The effects -/

/-- Two working copies with the same zones and evidence, read towards the same target. -/
structure SameLedger (w v : WorkingCatalog) : Prop where
  zones : w.zones = v.zones
  evidence : w.evidence = v.evidence
  primary : w.latestPrimaryEvidence = v.latestPrimaryEvidence
  configuration : w.latestConfigurationEvidence = v.latestConfigurationEvidence
  traversal : w.traversal = v.traversal

theorem SameLedger.refl (w : WorkingCatalog) : SameLedger w w := ⟨rfl, rfl, rfl, rfl, rfl⟩

/-- The zones and the evidence of `s'` are those of the working copy `v` after reading
blocks. -/
def Reads (ext : Externals) (v : WorkingCatalog) (segmentId : Text)
    (blocks : List CatalogL1Block) (context : CatalogEngineContext) (s' : CatalogSnapshot) :
    Prop :=
  ∃ w w', SameLedger w v ∧ ingestBlocks ext w blocks segmentId context = .ok w' ∧
    s'.zones = w'.zones ∧ s'.evidence = w'.evidence

/-- A frontier whose checkpoint is moved. -/
def CatalogFrontier.advanceTo (f : CatalogFrontier) (checkpoint : CatalogBlockCheckpoint) :
    CatalogFrontier :=
  { f with scannedThroughSlot := some checkpoint.slot, checkpoint := some checkpoint }

/-- Some segment reaches the target. -/
def reaches (segments : SegmentTable) (target : CatalogBlockReference) : Bool :=
  segments.records.any fun segment =>
    segment.reachesTargetLib && decide (segment.frontier = target)

/-- A frontier whose status is computed from segments and gaps. -/
def CatalogFrontier.covered (f : CatalogFrontier) (target : CatalogBlockReference)
    (segments : SegmentTable) (gaps : GapTable) : CatalogFrontier :=
  { f with
    observedLib := some target
    coverageStatus := coverageStatusOf (reaches segments target) gaps f }

/-- What all effects have in common: the metadata are stamped, there is a target, and the
status of the frontier is computed anew, from `f`. -/
structure Advances (s : CatalogSnapshot) (context : CatalogEngineContext)
    (f : CatalogFrontier) (target : CatalogBlockReference) (s' : CatalogSnapshot) : Prop where
  time : s.metadata.updatedAtUnix ≤ context.updatedAtUnix
  metadata : s'.metadata = stampedMetadata s context
  towards : targetLib s' = some target
  frontier : s'.frontier = some (f.covered target s'.segments s'.gaps)

/-- Blocks that are not beyond the target. -/
def WithinTarget (blocks : List CatalogL1Block) (target : CatalogBlockReference) : Prop :=
  ∀ b ∈ blocks, b.checkpoint.slot ≤ target.slot ∧
    (b.checkpoint.slot = target.slot → b.checkpoint.blockId = target.blockId)

/-- A segment of a table is the one that ends at the cursor. -/
structure IsActive (segments : SegmentTable) (c : CatalogBlockReference)
    (segment : CoverageSegment) : Prop where
  mem : segment ∈ segments
  ends : segment.frontier = c
  unique : ∀ other ∈ segments, other.frontier = c → other = segment

/-- A segment, when the target is set. -/
def retargetSegment (target : CatalogBlockReference) (segment : CoverageSegment) :
    CoverageSegment :=
  { segment with reachesTargetLib := decide (segment.frontier = target) }

theorem retargetSegment_segmentId (target : CatalogBlockReference) (seg : CoverageSegment) :
    (retargetSegment target seg).segmentId = seg.segmentId := rfl

/-- A zone, when the target is set. -/
def retargetZone (target : CatalogBlockReference) (context : CatalogEngineContext)
    (zone : ZoneCatalogRecord) : ZoneCatalogRecord :=
  if zone.l1Channel.libSlot = some target.slot then zone
  else
    { zone with
      l1Channel := { zone.l1Channel with libSlot := some target.slot }
      updatedAtUnix := context.updatedAtUnix }

theorem retargetZone_channelId (target : CatalogBlockReference)
    (context : CatalogEngineContext) (zone : ZoneCatalogRecord) :
    (retargetZone target context zone).channelId = zone.channelId := by
  unfold retargetZone
  split_ifs <;> rfl

/-- The segment of a chain of blocks. -/
def chainSegment (first last : CatalogBlockCheckpoint) (target : CatalogBlockReference) :
    CoverageSegment where
  segmentId := segmentIdForFloor first
  floor := first
  frontier := blockReference last
  reachesTargetLib := decide (blockReference last = target)

section Effects

variable (ext : Externals) (confirms : CatalogSnapshot → CatalogRepairConfirmation → Prop)
  (s : CatalogSnapshot) (blocks : List CatalogL1Block)
  (context : CatalogEngineContext) (s' : CatalogSnapshot)

/-- **The target is set.** -/
structure Retargets (target : CatalogBlockReference) : Prop where
  empty : blocks = []
  hex : IsHexId target.blockId
  above : ∀ c ∈ cursor s, c.slot ≤ target.slot ∧ (c.slot = target.slot → c.blockId = target.blockId)
  segments : s'.segments = s.segments.modifyAll (retargetSegment target)
    (retargetSegment_segmentId target)
  gaps : s'.gaps = s.gaps
  zones : s'.zones = s.zones.modifyAll (retargetZone target context)
    (retargetZone_channelId target context)
  evidence : s'.evidence = s.evidence
  cursor : cursor s' = cursor s
  advances : Advances s context (s.frontier.getD initialFrontier) target s'

/-- **Blocks are read at the end of the highest segment.** -/
structure Extends (segment : CoverageSegment) (first last : CatalogBlockCheckpoint)
    (target c : CatalogBlockReference) (f : CatalogFrontier) : Prop where
  start : cursor s = some c
  active : IsActive s.segments c segment
  chain : ChainEnds blocks first last
  above : c.slot < first.slot
  parent : first.parentId = c.blockId
  within : WithinTarget blocks target
  targeted : targetLib s = some target
  known : s.frontier = some f
  segments : s'.segments = s.segments.insert
    { segment with
      frontier := blockReference last
      reachesTargetLib := decide (blockReference last = target) }
  gaps : s'.gaps = s.gaps
  cursor : cursor s' = some (blockReference last)
  reads : Reads ext (fromSnapshot s) segment.segmentId blocks context s'
  advances : Advances s context (if s.gaps.records = [] then f.advanceTo last else f) target s'

/-- **A first segment is read, from slot `0`.** -/
structure Starts (first last : CatalogBlockCheckpoint) (target : CatalogBlockReference)
    (f : CatalogFrontier) : Prop where
  start : cursor s = none
  noSegments : s.segments.records = []
  noGaps : s.gaps.records = []
  chain : ChainEnds blocks first last
  genesis : validateGenesisBlock s first = .ok ()
  within : WithinTarget blocks target
  targeted : targetLib s = some target
  known : s.frontier = some f
  segments : s'.segments = s.segments.insert (chainSegment first last target)
  gaps : s'.gaps = s.gaps
  cursor : cursor s' = some (blockReference last)
  reads : Reads ext (fromSnapshot s) (segmentIdForFloor first) blocks context s'
  advances : Advances s context
    (CatalogFrontier.advanceTo { f with coverageFloor := some 0, prefixStatus := .complete } last)
    target s'

/-- **A segment is read above a gap.** -/
structure OpensGap (segment : CoverageSegment) (first last : CatalogBlockCheckpoint)
    (target c : CatalogBlockReference) (f : CatalogFrontier) (reason : CoverageGapReason) :
    Prop where
  start : cursor s = some c
  active : IsActive (s.segments.insert (chainSegment first last target)) c segment
  chain : ChainEnds blocks first last
  above : c.slot < first.slot
  missing : IsHexId first.parentId
  apart : first.parentId ≠ c.blockId
  within : WithinTarget blocks target
  fresh : ∀ other ∈ s.segments, other.segmentId ≠ segmentIdForFloor first
  targeted : targetLib s = some target
  known : s.frontier = some f
  segments : s'.segments = s.segments.insert (chainSegment first last target)
  gaps : s'.gaps = s.gaps.insert
    { gapId := gapIdForBoundary ext c first
      lowerSegmentId := segment.segmentId
      lowerCheckpoint := c
      upperSegmentId := segmentIdForFloor first
      upperBlock := blockReference first
      requiredParentId := first.parentId
      reason := reason
      status := .pending
      attempts := 1
      firstSeenAtUnix := context.updatedAtUnix
      lastAttemptAtUnix := some context.updatedAtUnix }
  cursor : cursor s' = some (blockReference last)
  reads : Reads ext (fromSnapshot s) (segmentIdForFloor first) blocks context s'
  advances : Advances s context f target s'

/-- **A first segment is read, above a missing prefix.** -/
structure OpensPrefix (first last : CatalogBlockCheckpoint) (target : CatalogBlockReference)
    (f : CatalogFrontier) : Prop where
  start : cursor s = none
  noSegments : s.segments.records = []
  noGaps : s.gaps.records = []
  chain : ChainEnds blocks first last
  missing : IsHexId first.parentId
  within : WithinTarget blocks target
  targeted : targetLib s = some target
  known : s.frontier = some f
  segments : s'.segments = s.segments.insert (chainSegment first last target)
  gaps : s'.gaps = s.gaps
  cursor : cursor s' = some (blockReference last)
  reads : Reads ext (fromSnapshot s) (segmentIdForFloor first) blocks context s'
  advances : Advances s context (CatalogFrontier.advanceTo
      { f with coverageFloor := some first.slot, prefixStatus := .unavailable } last) target s'

/-- **Blocks are read below the first segment**, down to slot `0` (`reached`) or not. -/
structure RepairsPrefix (reached : Bool) (segment : CoverageSegment)
    (first last : CatalogBlockCheckpoint) (target : CatalogBlockReference)
    (f : CatalogFrontier) : Prop where
  known : s.frontier = some f
  unavailable : f.prefixStatus = .unavailable
  mem : segment ∈ s.segments
  floor : f.coverageFloor = some segment.floor.slot
  chain : ChainEnds blocks first last
  hex : ∀ b ∈ blocks, HexCheckpoint b.checkpoint
  below : last.slot < segment.floor.slot
  parent : segment.floor.parentId = last.blockId
  bottom : if reached then validateGenesisBlock s first = .ok () else first.slot ≠ 0
  targeted : targetLib s = some target
  segments : s'.segments = s.segments.insert { segment with floor := first }
  gaps : s'.gaps = s.gaps
  cursor : cursor s' = cursor s
  reads : Reads ext (fromSnapshot s) segment.segmentId blocks context s'
  advances : Advances s context
    { f with
      coverageFloor := some first.slot
      prefixStatus := if reached then .complete else .unavailable } target s'

/-- **The blocks of a gap are read**, and its segments become one. -/
structure Merges (gap : CoverageGap) (lower upper : CoverageSegment)
    (confirmed : CatalogBlockCheckpoint) (target : CatalogBlockReference)
    (f : CatalogFrontier) (v : WorkingCatalog) : Prop where
  known : s.frontier = some f
  gapMem : gap ∈ s.gaps
  lowerMem : lower ∈ s.segments
  lowerId : lower.segmentId = gap.lowerSegmentId
  upperMem : upper ∈ s.segments
  upperId : upper.segmentId = gap.upperSegmentId
  hex : ∀ b ∈ blocks, HexCheckpoint b.checkpoint
  empty : blocks = [] → upper.floor.parentId = gap.lowerCheckpoint.blockId
  filled : blocks ≠ [] → ∃ first last, ChainEnds blocks first last ∧
    upper.floor.parentId = last.blockId ∧ last.slot < upper.floor.slot ∧
    gap.lowerCheckpoint.slot < first.slot ∧ first.parentId = gap.lowerCheckpoint.blockId
  confirmedHex : HexCheckpoint confirmed
  confirmation : ∃ confirmation, confirms s confirmation ∧
    confirmation.upperFrontierCheckpoint = some confirmed
  matched : blockReference confirmed = upper.frontier
  targeted : targetLib s = some target
  segments : s'.segments = (s.segments.insert
    { segmentId := lower.segmentId
      floor := lower.floor
      frontier := upper.frontier
      reachesTargetLib := upper.reachesTargetLib }).erase upper.segmentId
  gaps : s'.gaps = (s.gaps.erase gap.gapId).modifyAll (reattachGap upper.segmentId lower.segmentId)
    (reattachGap_gapId upper.segmentId lower.segmentId)
  cursor : cursor s' = cursor s
  moved : reassignSegment (fromSnapshot s) upper.segmentId lower.segmentId
    context = .ok v
  reads : Reads ext v lower.segmentId blocks context s'
  advances : Advances s context
    (if ∃ checkpoint ∈ f.checkpoint, checkpoint.blockId = gap.lowerCheckpoint.blockId then
      f.advanceTo confirmed else f) target s'

/-- A gap after an attempt that has not closed it. -/
def CoverageGap.backOff (gap : CoverageGap) (reason : CoverageGapReason)
    (context : CatalogEngineContext) : CoverageGap :=
  { gap with
    attempts := gap.attempts + 1
    lastAttemptAtUnix := some context.updatedAtUnix
    status := .backoff
    reason := reason }

/-- **Blocks are read at the upper end of a gap.** -/
structure Shrinks (gap : CoverageGap) (upper : CoverageSegment)
    (first last : CatalogBlockCheckpoint) (target : CatalogBlockReference)
    (f : CatalogFrontier) (reason : CoverageGapReason) : Prop where
  known : s.frontier = some f
  gapMem : gap ∈ s.gaps
  upperMem : upper ∈ s.segments
  upperId : upper.segmentId = gap.upperSegmentId
  chain : ChainEnds blocks first last
  hex : ∀ b ∈ blocks, HexCheckpoint b.checkpoint
  below : last.slot < upper.floor.slot
  parent : upper.floor.parentId = last.blockId
  above : gap.lowerCheckpoint.slot < first.slot
  apart : first.parentId ≠ gap.lowerCheckpoint.blockId
  targeted : targetLib s = some target
  segments : s'.segments = s.segments.insert { upper with floor := first }
  gaps : s'.gaps = s.gaps.insert
    { gap.backOff reason context with
      upperBlock := blockReference first
      requiredParentId := first.parentId }
  cursor : cursor s' = cursor s
  reads : Reads ext (fromSnapshot s) upper.segmentId blocks context s'
  advances : Advances s context f target s'

/-- **An attempt at a gap has found nothing.** -/
structure BacksOff (gap : CoverageGap) (target : CatalogBlockReference) (f : CatalogFrontier)
    (reason : CoverageGapReason) : Prop where
  known : s.frontier = some f
  gapMem : gap ∈ s.gaps
  empty : blocks = []
  targeted : targetLib s = some target
  segments : s'.segments = s.segments
  gaps : s'.gaps = s.gaps.insert (gap.backOff reason context)
  zones : s'.zones = s.zones
  evidence : s'.evidence = s.evidence
  cursor : cursor s' = cursor s
  advances : Advances s context f target s'

/-- **The effect of a step.** -/
inductive Effect : Prop
  | retarget (target) (h : Retargets s blocks context s' target)
  | extend (segment first last target c f)
      (h : Extends ext s blocks context s' segment first last target c f)
  | start (first last target f) (h : Starts ext s blocks context s' first last target f)
  | openGap (segment first last target c f reason)
      (h : OpensGap ext s blocks context s' segment first last target c f reason)
  | openPrefix (first last target f) (h : OpensPrefix ext s blocks context s' first last target f)
  | repairPrefix (reached segment first last target f)
      (h : RepairsPrefix ext s blocks context s' reached segment first last target f)
  | merge (gap lower upper confirmed target f v)
      (h : Merges ext confirms s blocks context s' gap lower upper confirmed target f v)
  | shrink (gap upper first last target f reason)
      (h : Shrinks ext s blocks context s' gap upper first last target f reason)
  | backOff (gap target f reason) (h : BacksOff s blocks context s' gap target f reason)

end Effects

/-! ### Taking the engine apart -/

theorem recomputeCoverage_eq_ok (h : recomputeCoverage w = .ok w') :
    ∃ target f, w.traversal.bind CatalogTraversal.targetLib = some target ∧ w.frontier = some f ∧
      w' = { w with frontier := some (f.covered target w.segments w.gaps) } := by
  simp only [recomputeCoverage, currentTargetInWorking, bind_eq_ok, required_eq_ok, pure_eq_ok] at h
  obtain ⟨target, htar, f, hf, rfl⟩ := h
  exact ⟨target, f, htar, hf, rfl⟩

/-- The catalog that a step leads to, from the working copy at its end. -/
structure Closes (s : CatalogSnapshot) (context : CatalogEngineContext) (w : WorkingCatalog)
    (s' : CatalogSnapshot) (f : CatalogFrontier) (target : CatalogBlockReference) : Prop where
  frontier : w.frontier = some f
  towards : w.traversal.bind CatalogTraversal.targetLib = some target
  zones : s'.zones = w.zones
  evidence : s'.evidence = w.evidence
  segments : s'.segments = w.segments
  gaps : s'.gaps = w.gaps
  cursor : cursor s' = ingestionCursor w.traversal
  advances : Advances s context f target s'

theorem closes_of_intoBatch (htime : s.metadata.updatedAtUnix ≤ context.updatedAtUnix)
    (h : recomputeCoverage w = .ok w') (hbatch : w'.intoBatch s context = some batch) :
    ∃ f target, Closes s context w (afterBatch s batch) f target := by
  obtain ⟨target, f, htar, hf, rfl⟩ := recomputeCoverage_eq_ok h
  rw [afterBatch_intoBatch hbatch]
  exact ⟨f, target, hf, htar, rfl, rfl, rfl, rfl, rfl, htime, rfl, htar, rfl⟩

variable {ext : Externals} {events : List CatalogL1BlockEvent} {first : CatalogBlockCheckpoint}
  {r : CatalogPageReduction}

variable {req : CatalogAncestryRepairRequest}

section Inversion

/-- The chain of the accepted events of a page. -/
theorem chainEnds_of_events {first last : CatalogL1BlockEvent}
    (hchain : IsBlockChain (eventBlocks events)) (hfirst : events.head? = some first)
    (hlast : events.getLast? = some last) :
    ChainEnds (eventBlocks events) first.block.checkpoint last.block.checkpoint := by
  refine ⟨hchain, ?_, ?_⟩
  · rw [head?_map, hfirst]
    rfl
  · rw [getLast?_map, hlast]
    rfl

theorem validateEventAgainstTarget_eq_ok {target : CatalogBlockReference}
    {event : CatalogL1BlockEvent} (h : validateEventAgainstTarget target event = .ok ()) :
    event.block.checkpoint.slot ≤ target.slot ∧ (event.block.checkpoint.slot = target.slot →
        event.block.checkpoint.blockId = target.blockId) := by
  simp only [validateEventAgainstTarget, bind_eq_ok, exists_unit, reject_eq_ok, not_lt, not_and,
    not_not] at h
  exact ⟨h.1, h.2.1⟩

/-- What reading the accepted blocks of a page does, once its segment is known. -/
theorem applyConnectedEvents_eq_ok (htime : s.metadata.updatedAtUnix ≤ context.updatedAtUnix)
    (h : applyConnectedEvents ext s events context = .ok batch) :
    ∃ first last target segmentId w seg f, events.head? = some first ∧
      events.getLast? = some last ∧ targetLib s = some target ∧
      connectedSegment (fromSnapshot s) first.block.checkpoint = .ok (segmentId, w) ∧
      w.segments.find? segmentId = some seg ∧ w.frontier = some f ∧
      Reads ext w segmentId (eventBlocks events) context (afterBatch s batch) ∧
      (afterBatch s batch).segments = w.segments.insert
        { seg with
          frontier := blockReference last.block.checkpoint
          reachesTargetLib := decide (blockReference last.block.checkpoint = target) } ∧
      (afterBatch s batch).gaps = s.gaps ∧
      cursor (afterBatch s batch) = some (blockReference last.block.checkpoint) ∧
      Advances s context (if s.gaps.records = [] then f.advanceTo last.block.checkpoint else f)
        target (afterBatch s batch) := by
  simp only [applyConnectedEvents, bind_eq_ok, required_eq_ok, currentTarget_eq_ok] at h
  obtain ⟨first, hfirst, last, hlast, target, htar, ⟨segmentId, w⟩, hseg, w₁, hi,
    seg, hfind, traversal, htraversal, w₂, hcover, hbatch⟩ := h
  have hkeep : w.traversal = s.traversal ∧ w.gaps = s.gaps := by
    unfold connectedSegment at hseg
    split at hseg
    all_goals simp only [bind_eq_ok, pure_eq_ok, Prod.mk.injEq] at hseg
    · obtain ⟨_, -, -, rfl⟩ := hseg
      exact ⟨rfl, rfl⟩
    · obtain ⟨_, -, _, -, -, rfl⟩ := hseg
      exact ⟨rfl, rfl⟩
  obtain ⟨hframe₁, hframe₂, hframe₃, hframe₄⟩ := ingestBlocks_sameCoverage hi
  obtain ⟨f', target', hfrontier, ht, hzone, he, hsegments, hgaps, hcur, ha⟩ :=
    closes_of_intoBatch htime hcover hbatch
  simp only [apply_ite WorkingCatalog.frontier, apply_ite WorkingCatalog.traversal,
    apply_ite WorkingCatalog.zones, apply_ite WorkingCatalog.evidence,
    apply_ite WorkingCatalog.segments, apply_ite WorkingCatalog.gaps,
    setConnectedFrontierCheckpoint, ite_self, hframe₁, hframe₃, hframe₄, hkeep.2]
    at hfrontier ht hzone he hsegments hgaps hcur
  have htar' : target' = target := by
    rw [targetLib, ← hkeep.1, ← hframe₂, htraversal] at htar
    exact some_inj.1 (ht.symm.trans htar)
  subst htar'
  rw [hframe₃] at hfind
  have hread : Reads ext w segmentId (eventBlocks events) context (afterBatch s batch) :=
    ⟨w, w₁, SameLedger.refl w, hi, hzone, he⟩
  cases hf : w.frontier with
  | none => simp [hf] at hfrontier
  | some f =>
    refine ⟨first, last, target', segmentId, w, seg, f, hfirst, hlast, htar, hseg, hfind,
      hf, hread, hsegments, hgaps, hcur, ?_⟩
    have hf' : f' = if s.gaps.records = [] then f.advanceTo last.block.checkpoint else f := by
      rw [hf] at hfrontier
      split_ifs at hfrontier ⊢ <;> exact (some_inj.1 hfrontier).symm
    exact hf' ▸ ha

/-- What is known of the answer to a page. -/
def PageAnswer (ext : Externals)
    (confirms : CatalogSnapshot → CatalogRepairConfirmation → Prop) (s : CatalogSnapshot)
    (events : List CatalogL1BlockEvent) (context : CatalogEngineContext) :
    CatalogPageReduction → Prop
  | .noProgress => True
  | .repairRequired request pending => pending = events ∧ request.lowerCheckpoint = cursor s
  | .commit batch remaining =>
    Effect ext confirms s (eventBlocks (readEvents events remaining)) context (afterBatch s batch)
  | .gapConfirmationRequired .. => False

theorem pageRepairRequest_some (h : pageRepairRequest s first context = .ok (some req)) :
    req.lowerCheckpoint = cursor s := by
  unfold pageRepairRequest at h
  split at h
  · next c hc =>
    simp only [bind_eq_ok, exists_unit] at h
    obtain ⟨_, -, -, h⟩ := h
    split_ifs at h
    · cases h
      exact hc.symm
    · cases h
  · next hc =>
    simp only [bind_eq_ok, exists_unit] at h
    obtain ⟨-, h⟩ := h
    split_ifs at h
    · cases h
      exact hc.symm
    · simp at h

/-- A page that needs no search goes on at the cursor, or starts the chain. -/
theorem pageRepairRequest_none (h : pageRepairRequest s first context = .ok none) :
    (∃ c, cursor s = some c ∧ c.slot < first.slot ∧ first.parentId = c.blockId) ∨
      (cursor s = none ∧ s.segments.records = [] ∧ s.gaps.records = [] ∧
        validateGenesisBlock s first = .ok ()) := by
  unfold pageRepairRequest at h
  split at h
  · next c hc =>
    simp only [bind_eq_ok, exists_unit, reject_eq_ok, not_le] at h
    obtain ⟨_, -, habove, h⟩ := h
    split_ifs at h with hp
    · cases h
    · exact .inl ⟨c, hc, habove, not_not.1 hp⟩
  · next hc =>
    simp only [bind_eq_ok, exists_unit, reject_eq_ok, not_or, not_not] at h
    obtain ⟨⟨hseg, hgaps⟩, h⟩ := h
    split_ifs at h with hslot
    · cases h
    · rw [bind_eq_ok, exists_unit] at h
      exact .inr ⟨hc, hseg, hgaps, h.1⟩

variable {c : CatalogBlockReference} {last : CatalogBlockCheckpoint}

theorem connectedSegment_some (h : connectedSegment w first = .ok (segmentId, w'))
    (hc : ingestionCursor w.traversal = some c) :
    w' = w ∧ ∃ seg, IsActive w.segments c seg ∧ seg.segmentId = segmentId := by
  simp only [connectedSegment, hc, bind_eq_ok, pure_eq_ok, Prod.mk.injEq] at h
  obtain ⟨_, hac, rfl, rfl⟩ := h
  obtain ⟨seg, hm, hid, hends, hu⟩ := activeSegmentIdIn_eq_ok hac
  exact ⟨rfl, seg, ⟨hm, hends, hu⟩, hid⟩

theorem connectedSegment_none
    (h : connectedSegment w first = .ok (segmentId, w')) (hc : ingestionCursor w.traversal = none) :
    segmentId = segmentIdForFloor first ∧ ∃ f, w.frontier = some f ∧
      w' = { w with
        segments := w.segments.insert
          { segmentId := segmentIdForFloor first
            floor := first
            frontier := blockReference first
            reachesTargetLib := false }
        frontier := some { f with coverageFloor := some 0, prefixStatus := .complete } } := by
  simp only [connectedSegment, hc, bind_eq_ok, exists_unit, required_eq_ok, pure_eq_ok,
    Prod.mk.injEq] at h
  obtain ⟨-, f, hf, rfl, rfl⟩ := h
  exact ⟨rfl, f, hf, rfl⟩

theorem reduceCatalogPage_answer {page : CatalogL1RangePage}
    (h : reduceCatalogPage ext s page context = .ok r) :
    PageAnswer ext confirms s page.events context r := by
  simp only [reduceCatalogPage, bind_eq_ok, exists_unit, validateContext_eq_ok] at h
  obtain ⟨htime, h⟩ := h
  cases hhead : page.events.head? with
  | none =>
    simp only [hhead, pure_eq_ok] at h
    exact h ▸ trivial
  | some first =>
    simp only [hhead, bind_eq_ok, exists_unit, currentTarget_eq_ok, forM_eq_ok] at h
    obtain ⟨-, target, htar, hevs, -, req, hreq, h⟩ := h
    cases req with
    | some _ =>
      simp only [pure_eq_ok] at h
      subst h
      exact ⟨rfl, pageRepairRequest_some hreq⟩
    | none =>
      simp only [bind_eq_ok, pure_eq_ok] at h
      obtain ⟨⟨accepted, _⟩, hsplit, _, hbatch, rfl⟩ := h
      obtain ⟨hevs', hne, hchain⟩ := splitConnectedEvents_eq_ok hsplit
      obtain ⟨first', last, _, _, _, seg, f, hfirst, hlast, htar', hseg,
        hfind, hf, hread, hsegments, hgaps, hcur', ha⟩ :=
        applyConnectedEvents_eq_ok htime hbatch
      obtain rfl := some_inj.1 (htar.symm.trans htar')
      have hfirst' : first' = first := by
        rw [hevs', head?_append_of_ne_nil _ hne, hfirst] at hhead
        exact some_inj.1 hhead
      subst hfirst'
      have hends := chainEnds_of_events hchain hfirst hlast
      have hw : WithinTarget (eventBlocks accepted) target := by
        intro _ hb
        obtain ⟨e, he, rfl⟩ := mem_map.1 hb
        exact validateEventAgainstTarget_eq_ok (hevs e (hevs' ▸ mem_append_left _ he))
      rw [PageAnswer, hevs', readEvents_append]
      rcases pageRepairRequest_none hreq with
        ⟨c, hc, habove, hp⟩ | ⟨hc, hnoS, hnoG, hgen⟩
      · -- reading goes on in the segment that ends at the cursor
        obtain ⟨rfl, active, hac, rfl⟩ :=
          connectedSegment_some hseg hc
        obtain rfl : active = seg :=
          some_inj.1 ((find?_of_mem hac.mem).symm.trans hfind)
        exact .extend active _ _ target c f ⟨hc, hac, hends, habove, hp, hw, htar,
          hf, hsegments, hgaps, hcur', hread, ha⟩
      · -- a first segment: it is written twice, with its first block and with its last
        obtain ⟨rfl, f₀, hf₀, rfl⟩ :=
          connectedSegment_none hseg hc
        rw [find?_insert, if_pos rfl, some_inj] at hfind
        subst hfind
        cases hf
        rw [if_pos hnoG] at ha
        refine .start _ _ target f₀ ⟨hc, hnoS, hnoG, hends, hgen, hw, htar,
          hf₀, hsegments.trans (insert_insert rfl), hgaps, hcur', ?_, ha⟩
        obtain ⟨v, v', hv, hi, hzone, hevidence⟩ := hread
        exact ⟨v, v', ⟨hv.zones, hv.evidence, hv.primary, hv.configuration, hv.traversal⟩, hi,
          hzone, hevidence⟩

variable {missing : Text} {reason : CoverageGapReason}

section

variable (h : openBelow ext s w first last missing reason context = .ok w')

include h

theorem openBelow_some (hc : ingestionCursor w.traversal = some c) :
    ∃ seg, IsActive w.segments c seg ∧
      w' = { w with
        gaps := w.gaps.insert
          { gapId := gapIdForBoundary ext c first
            lowerSegmentId := seg.segmentId
            lowerCheckpoint := c
            upperSegmentId := segmentIdForFloor first
            upperBlock := blockReference first
            requiredParentId := missing
            reason := reason
            status := .pending
            attempts := 1
            firstSeenAtUnix := context.updatedAtUnix
            lastAttemptAtUnix := some context.updatedAtUnix } } := by
  simp only [openBelow, hc, bind_eq_ok, pure_eq_ok] at h
  obtain ⟨_, hac, rfl⟩ := h
  obtain ⟨seg, hm, rfl, hends, hu⟩ := activeSegmentIdIn_eq_ok hac
  exact ⟨seg, ⟨hm, hends, hu⟩, rfl⟩

theorem openBelow_none (hc : ingestionCursor w.traversal = none) :
    s.segments.records = [] ∧ s.gaps.records = [] ∧ ∃ f, w.frontier = some f ∧
      w' = { w with
        frontier := some (CatalogFrontier.advanceTo
          { f with coverageFloor := some first.slot, prefixStatus := .unavailable } last) } := by
  simp only [openBelow, hc, bind_eq_ok, exists_unit, reject_eq_ok, not_or, not_not,
    required_eq_ok, pure_eq_ok] at h
  obtain ⟨⟨hseg, hgaps⟩, f, hf, rfl⟩ := h
  exact ⟨hseg, hgaps, f, hf, rfl⟩

end

/-- **Reading blocks as a new segment** opens a gap, or a missing prefix. -/
theorem openDisconnectedSegment_effect (htime : s.metadata.updatedAtUnix ≤ context.updatedAtUnix)
    (habove : ∀ c ∈ cursor s, ∀ e ∈ events.head?, c.slot < e.block.checkpoint.slot)
    (hapart : ∀ c ∈ cursor s, c.blockId ≠ missing)
    (h : openDisconnectedSegment ext s events missing reason context = .ok r) :
    ∃ batch remaining, r = .commit batch remaining ∧
      Effect ext confirms s (eventBlocks (readEvents events remaining)) context
        (afterBatch s batch) := by
  simp only [openDisconnectedSegment, bind_eq_ok, exists_unit, validateId_eq_ok,
    currentTarget_eq_ok, forM_eq_ok, required_eq_ok, reject_eq_ok, not_not, pure_eq_ok] at h
  obtain ⟨hm, -, target, htar, hevs, -, ⟨accepted, remaining⟩, hsplit, first, hfirst,
    last, hlast, rfl, hfresh, w, hopen, w₁, hi, traversal, ht, w₂, hcover, batch,
    hbatch, rfl⟩ := h
  obtain ⟨rfl, hne, hchain⟩ := splitConnectedEvents_eq_ok hsplit
  refine ⟨batch, remaining, rfl, ?_⟩
  have hends := chainEnds_of_events hchain hfirst hlast
  have hw : WithinTarget (eventBlocks accepted) target := by
    intro _ hb
    obtain ⟨e, he, rfl⟩ := mem_map.1 hb
    exact validateEventAgainstTarget_eq_ok (hevs e (mem_append_left _ he))
  rw [readEvents_append]
  obtain ⟨hframe₁, hframe₂, hframe₃, hframe₄⟩ := ingestBlocks_sameCoverage hi
  obtain ⟨f', target', hfrontier, htowards, hzone, hevidence, hseg, hgaps, hcur, ha⟩ :=
    closes_of_intoBatch htime hcover hbatch
  simp only [hframe₁, hframe₃, hframe₄] at hfrontier hseg hgaps
  have ht' : w.traversal = s.traversal := by
    unfold openBelow at hopen
    split at hopen
    all_goals simp only [bind_eq_ok, pure_eq_ok] at hopen
    · obtain ⟨_, -, rfl⟩ := hopen
      rfl
    · obtain ⟨_, -, _, -, rfl⟩ := hopen
      rfl
  have htar' : target' = target := by
    rw [targetLib, ← ht', ← hframe₂, ht] at htar
    exact some_inj.1 (htowards.symm.trans htar)
  subst htar'
  cases hc : cursor s with
  | some c =>
    obtain ⟨seg, hac, rfl⟩ := openBelow_some hopen hc
    refine .openGap seg _ _ target' c f' reason ⟨hc, hac, hends, ?_, hm, ?_, hw,
      ?_, htar, hfrontier, hseg, hgaps, hcur, ?_, ha⟩
    · exact habove c hc first (by rw [head?_append_of_ne_nil _ hne]; exact hfirst)
    · exact (hapart c hc).symm
    · intro other ho he
      exact hfresh (contains_iff.2 ⟨other, ho, he⟩)
    · exact ⟨_, w₁, by exact ⟨rfl, rfl, rfl, rfl, rfl⟩, hi, hzone, hevidence⟩
  | none =>
    obtain ⟨hnoS, hnoG, f, hf, rfl⟩ := openBelow_none hopen hc
    obtain rfl := some_inj.1 hfrontier
    refine .openPrefix _ _ target' f ⟨hc, hnoS, hnoG, hends, hm, hw, htar,
      hf, hseg, hgaps, hcur, ?_, ha⟩
    exact ⟨_, w₁, by exact ⟨rfl, rfl, rfl, rfl, rfl⟩, hi, hzone, hevidence⟩

end Inversion

variable {outcome : CatalogAncestryRepairOutcome} {confirmation : CatalogRepairConfirmation}

theorem validateGenesisBlock_eq_ok : validateGenesisBlock s first = .ok () ↔ first.slot = 0 ∧
      ∀ genesisId, s.metadata.networkScope = .genesisId genesisId → first.blockId = genesisId := by
  unfold validateGenesisBlock
  cases hscope : s.metadata.networkScope with
  | genesisId => simp
  | finalizedAnchor => simp

/-- A repair that reaches slot `0` has found the genesis block. -/
theorem validateGenesisBlock_of_request {upper : CatalogBlockCheckpoint} (hslot : first.slot = 0)
    (h : ∀ expected ∈ (repairRequest none upper s context).expectedGenesisId,
      expected = first.blockId) : validateGenesisBlock s first = .ok () := by
  refine validateGenesisBlock_eq_ok.2 ⟨hslot, fun genesisId hscope => (h genesisId ?_).symm⟩
  simp [repairRequest, hscope]

theorem catalogPrefixRepairRequest_eq_ok (h : catalogPrefixRepairRequest s context = .ok req) :
    ∃ f seg, s.frontier = some f ∧ f.prefixStatus = .unavailable ∧ seg ∈ s.segments ∧
      f.coverageFloor = some seg.floor.slot ∧
      req = repairRequest none seg.floor s context := by
  simp only [catalogPrefixRepairRequest, bind_eq_ok, exists_unit, required_eq_ok, reject_eq_ok,
    not_not, pure_eq_ok] at h
  obtain ⟨-, f, hf, hb, floor, hfloor, seg, hseg, rfl⟩ := h
  have hslot : seg.floor.slot = floor := by simpa using find?_some hseg
  exact ⟨f, seg, hf, hb, mem_of_find?_eq_some hseg, hslot ▸ hfloor, rfl⟩

/-- Reading blocks below a first segment whose floor is known. -/
theorem applyPrefixRepair_effect {segment₀ : CoverageSegment} {f : CatalogFrontier}
    {last : CatalogBlockCheckpoint} (reached : Bool)
    (h : applyPrefixRepair ext s segment₀.floor outcome context = .ok (some batch))
    (htime : s.metadata.updatedAtUnix ≤ context.updatedAtUnix) (hf : s.frontier = some f)
    (hb : f.prefixStatus = .unavailable)
    (hfloor : f.coverageFloor = some segment₀.floor.slot)
    (hends : ChainEnds outcome.recoveredBlocks first last)
    (hhex : ∀ b ∈ outcome.recoveredBlocks, HexCheckpoint b.checkpoint)
    (hbelow : last.slot < segment₀.floor.slot) (hp : segment₀.floor.parentId = last.blockId)
    (hbottom : if reached then validateGenesisBlock s first = .ok () else first.slot ≠ 0)
    (hr : prefixRepairedFrontier outcome first f =
      { f with
        coverageFloor := some first.slot
        prefixStatus := if reached then .complete else .unavailable }) :
    ∃ seg target, RepairsPrefix ext s outcome.recoveredBlocks context (afterBatch s batch)
      reached seg first last target f := by
  simp only [applyPrefixRepair, bind_eq_ok, required_eq_ok, pure_eq_ok] at h
  obtain ⟨seg, hseg, oldest, hold, w, hi, segment', hfind, f', hf', _, hcover, hbatch⟩ := h
  have hm : seg ∈ s.segments := mem_of_find?_eq_some hseg
  have hfl : seg.floor = segment₀.floor := by simpa using find?_some hseg
  obtain ⟨hframe₁, hframe₂, hframe₃, hframe₄⟩ := ingestBlocks_sameCoverage hi
  obtain rfl : f' = f := some_inj.1 ((hframe₁.symm.trans hf').symm.trans hf)
  obtain rfl : segment' = seg := by
    rw [hframe₃] at hfind
    exact some_inj.1 (hfind.symm.trans (find?_of_mem (t := s.segments) hm))
  obtain rfl : oldest.checkpoint = first := by
    have := hends.head
    rw [hold] at this
    exact some_inj.1 this
  obtain ⟨_, target, hfrontier, ht, hzone, he, hsegments, hgaps, hcur, ha⟩ :=
    closes_of_intoBatch htime hcover hbatch
  obtain rfl := some_inj.1 hfrontier
  rw [hr] at ha
  rw [hframe₂] at ht hcur
  rw [hframe₃] at hsegments
  exact ⟨segment', target, hf, hb, hm, hfl ▸ hfloor, hends, hhex, hfl ▸ hbelow,
    hfl ▸ hp, hbottom, ht, hsegments, hgaps.trans hframe₄, hcur,
    ⟨_, w, SameLedger.refl _, hi, hzone, he⟩, ha⟩

/-- **A prefix repair** reads blocks below the first segment. -/
theorem reduceCatalogPrefixRepair_effect
    (h : reduceCatalogPrefixRepair ext s outcome confirmation context = .ok (some batch)) :
    ∃ reached seg first last target f, RepairsPrefix ext s outcome.recoveredBlocks context
      (afterBatch s batch) reached seg first last target f := by
  simp only [reduceCatalogPrefixRepair, bind_eq_ok, exists_unit, validateContext_eq_ok] at h
  obtain ⟨htime, -, _, hreq, h⟩ := h
  obtain ⟨f, _, hf, hb, -, hfloor, rfl⟩ := catalogPrefixRepairRequest_eq_ok hreq
  cases outcome with simp only [bind_eq_ok, exists_unit] at h
  | connected recovered =>
    obtain ⟨hv, h⟩ := h
    have hr := validateConnectedRepair_eq_ok hv
    have hne : recovered ≠ [] := by
      intro hnil
      obtain ⟨_, hlow, -⟩ := hr.empty hnil
      cases hlow
    obtain ⟨first, last, hends, hp, hbelow, -, hgen⟩ := hr.filled hne
    obtain ⟨hzero, hexpected⟩ := hgen rfl
    obtain ⟨segment', target, he⟩ := applyPrefixRepair_effect true h htime hf
      hb hfloor hends hr.hex hbelow hp
      (validateGenesisBlock_of_request hzero hexpected) (by rw [hzero]; rfl)
    exact ⟨true, segment', first, last, target, f, he⟩
  | unresolved =>
    obtain ⟨hv, h⟩ := h
    split_ifs at h with hnil
    · cases h
    · obtain ⟨hr, -⟩ := validateUnresolvedRepair_eq_ok hv
      obtain ⟨first, last, hends, -, hp, hbelow, -, hzero⟩ := hr.hanging hnil
      obtain ⟨segment', target, he⟩ := applyPrefixRepair_effect false h htime hf
        hb hfloor hends hr.hex hbelow hp (hzero rfl)
        (by rw [← hb]; rfl)
      exact ⟨false, segment', first, last, target, f, he⟩

variable {blocks : List CatalogL1Block}

section GapRepair

variable {gap : CoverageGap} {lower upper : CoverageSegment}

/-- The working copy after the blocks of a gap were read. -/
theorem mergeAcrossGap_eq_ok {confirmed : CatalogBlockCheckpoint}
    (h : mergeAcrossGap ext (fromSnapshot s) gap lower upper blocks confirmed
      context = .ok w) :
    ∃ v w', reassignSegment (fromSnapshot s) upper.segmentId lower.segmentId
        context = .ok v ∧
      ingestBlocks ext v blocks lower.segmentId context = .ok w' ∧
      w.zones = w'.zones ∧ w.evidence = w'.evidence ∧ w.traversal = s.traversal ∧
      w.segments = (s.segments.insert
        { segmentId := lower.segmentId
          floor := lower.floor
          frontier := upper.frontier
          reachesTargetLib := upper.reachesTargetLib }).erase upper.segmentId ∧
      w.gaps = (s.gaps.erase gap.gapId).modifyAll (reattachGap upper.segmentId lower.segmentId)
        (reattachGap_gapId upper.segmentId lower.segmentId) ∧
      w.frontier = s.frontier.map fun f =>
        if ∃ cp ∈ f.checkpoint, cp.blockId = gap.lowerCheckpoint.blockId then
          f.advanceTo confirmed else f := by
  simp only [mergeAcrossGap, bind_eq_ok] at h
  obtain ⟨v, hmove, w', hi, h⟩ := h
  obtain ⟨hframe₁, hframe₂, hframe₃, hframe₄⟩ :=
    (reassignSegment_sameCoverage hmove).trans (ingestBlocks_sameCoverage hi)
  have hframe₁' : w'.frontier = s.frontier := hframe₁
  refine ⟨v, w', hmove, hi, ?_⟩
  rw [hframe₁', hframe₃, hframe₄] at h
  cases hf : s.frontier with
  | none =>
    simp only [hf, Option.bind_none, Option.not_mem_none, false_and, exists_false, if_false,
      pure_eq_ok] at h
    subst h
    exact ⟨rfl, rfl, hframe₂, rfl, rfl, rfl⟩
  | some _ =>
    rw [hf, Option.bind_some] at h
    rw [Option.map_some]
    split_ifs at h ⊢
    all_goals
      rw [pure_eq_ok] at h
      subst h
      exact ⟨rfl, rfl, hframe₂, rfl, rfl, rfl⟩

/-- What the engine has found and done when it proposes a gap repair. -/
structure RepairsGap (ext : Externals) (s : CatalogSnapshot)
    (outcome : CatalogAncestryRepairOutcome) (confirmation : CatalogRepairConfirmation)
    (context : CatalogEngineContext) (batch : CatalogBatch) (gap : CoverageGap)
    (lower upper : CoverageSegment) (w : WorkingCatalog) : Prop where
  gapMem : gap ∈ s.gaps
  lowerMem : lower ∈ s.segments
  lowerId : lower.segmentId = gap.lowerSegmentId
  upperMem : upper ∈ s.segments
  upperId : upper.segmentId = gap.upperSegmentId
  applied : applyGapRepair ext (fromSnapshot s) gap lower upper
    { lowerCheckpoint := some gap.lowerCheckpoint
      upperCheckpoint := upper.floor
      expectedGenesisId := none
      maxBlocks := context.repairBlockLimit
      maxBlocks_pos := context.repairBlockLimit_pos } outcome confirmation context = .ok w
  closes : ∃ f target, Closes s context w (afterBatch s batch) f target

variable {gapId : Text}

theorem reduceCatalogGapRepair_eq_ok
    (h : reduceCatalogGapRepair ext s gapId outcome confirmation context = .ok batch) :
    ∃ gap lower upper w, RepairsGap ext s outcome confirmation context batch gap lower upper w := by
  simp only [reduceCatalogGapRepair, bind_eq_ok, exists_unit, validateContext_eq_ok,
    required_eq_ok, find?_eq_some] at h
  obtain ⟨htime, gap, ⟨hgap, -⟩, lower, ⟨hlower, hlow⟩, upper, ⟨hupper, hu⟩, -, w,
    happly, w₁, hcover, hbatch⟩ := h
  exact ⟨gap, lower, upper, w, hgap, hlower, hlow, hupper, hu, happly,
    closes_of_intoBatch htime hcover hbatch⟩

/-- **Blocks that fill a gap** close it. -/
theorem reduceCatalogGapRepair_merges (hcon : confirms s confirmation)
    (h : reduceCatalogGapRepair ext s gapId (.connected blocks) confirmation context = .ok batch) :
    ∃ gap lower upper confirmed target f v,
      Merges ext confirms s blocks context (afterBatch s batch) gap lower upper confirmed target f
        v := by
  obtain ⟨gap, lower, upper, _, hr⟩ := reduceCatalogGapRepair_eq_ok h
  obtain ⟨_, target, hfrontier, ht, hzone, hevidence, hsegments, hgaps, hcur, ha⟩ :=
    hr.closes
  have happly := hr.applied
  simp only [applyGapRepair, bind_eq_ok, exists_unit, required_eq_ok,
    validateCheckpointOf_eq_ok, reject_eq_ok, not_or, not_not] at happly
  obtain ⟨hv, confirmed, hgiven, hconfirmed, ⟨hslot, hid⟩, hmerge⟩ := happly
  have hrepair := validateConnectedRepair_eq_ok hv
  obtain ⟨v, w', hmove, hi, hz, he, htr, hseg, hgap', hfr⟩ := mergeAcrossGap_eq_ok hmerge
  rw [hfr, Option.map_eq_some_iff] at hfrontier
  obtain ⟨f, hf, rfl⟩ := hfrontier
  rw [htr] at ht hcur
  refine ⟨gap, lower, upper, confirmed, target, f, v, hf, hr.gapMem, hr.lowerMem, hr.lowerId,
    hr.upperMem, hr.upperId, hrepair.hex, fun hnil => ?_, fun hne => ?_, hconfirmed,
    ⟨confirmation, hcon, hgiven⟩, ?_, ht, hsegments.trans hseg, hgaps.trans hgap',
    hcur, hmove, ⟨v, w', SameLedger.refl v, hi, hzone.trans hz, hevidence.trans he⟩,
    ha⟩
  · obtain ⟨_, hlower', hp⟩ := hrepair.empty hnil
    cases hlower'
    exact hp
  · obtain ⟨first, last, hends, hp, hbelow, hlow, -⟩ := hrepair.filled hne
    exact ⟨first, last, hends, hp, hbelow, hlow _ rfl⟩
  · rw [blockReference, hslot, hid]

/-- **A gap repair** closes the gap, shrinks it, or finds nothing. -/
theorem reduceCatalogGapRepair_effect (hcon : confirms s confirmation)
    (h : reduceCatalogGapRepair ext s gapId outcome confirmation context = .ok batch) :
    Effect ext confirms s outcome.recoveredBlocks context (afterBatch s batch) := by
  cases outcome with
  | connected =>
    obtain ⟨gap, lower, upper, confirmed, target, f, v, he⟩ :=
      reduceCatalogGapRepair_merges hcon h
    exact .merge gap lower upper confirmed target f v he
  | unresolved blocks _ reason =>
    obtain ⟨gap, _, upper, _, hr⟩ := reduceCatalogGapRepair_eq_ok h
    obtain ⟨f', target, hf, ht, hzone, hevidence, hseg, hgaps, hcur, ha⟩ :=
      hr.closes
    have happly := hr.applied
    simp only [applyGapRepair, bind_eq_ok, exists_unit] at happly
    obtain ⟨hv, hshr⟩ := happly
    obtain ⟨hrepair, -⟩ := validateUnresolvedRepair_eq_ok hv
    simp only [shrinkGap, bind_eq_ok, exists_unit] at hshr
    obtain ⟨-, hshr⟩ := hshr
    cases hhead : blocks.head? with
    | none =>
      simp only [hhead, pure_eq_ok] at hshr
      subst hshr
      exact .backOff gap target f' reason ⟨hf, hr.gapMem, head?_eq_none_iff.1 hhead,
        ht, hseg, hgaps, hzone, hevidence, hcur, ha⟩
    | some oldest =>
      simp only [hhead, bind_eq_ok, pure_eq_ok] at hshr
      obtain ⟨w', hi, rfl⟩ := hshr
      have hne : blocks ≠ [] := by
        rintro rfl
        cases hhead
      obtain ⟨first, last, hends, rfl, hp, hbelow, hlow, -⟩ := hrepair.hanging hne
      obtain rfl : oldest.checkpoint = first := by
        have hfirst := hends.head
        rw [hhead] at hfirst
        exact some_inj.1 hfirst
      obtain ⟨hframe₁, hframe₂, hframe₃, hframe₄⟩ := ingestBlocks_sameCoverage hi
      simp only [hframe₁, hframe₂, hframe₃, hframe₄] at hf ht hseg hgaps hcur
      exact .shrink gap upper _ last target f' reason ⟨hf, hr.gapMem, hr.upperMem,
        hr.upperId, hends, hrepair.hex, hbelow, hp, hlow _ rfl, (hrepair.apart _ rfl).symm,
        ht, hseg, hgaps, hcur, ⟨_, w', SameLedger.refl _, hi, hzone, hevidence⟩,
        ha⟩

end GapRepair

section Prepare

variable {target : CatalogBlockReference}

/-- The segments that are written when the target is set. -/
def retargetedSegments (s : CatalogSnapshot) (target : CatalogBlockReference) :
    List CoverageSegment :=
  s.segments.records.filterMap fun segment =>
    if segment.reachesTargetLib ≠ decide (segment.frontier = target) then
      some { segment with reachesTargetLib := decide (segment.frontier = target) }
    else none

/-- The zones that are written when the target is set. -/
def retargetedZones (s : CatalogSnapshot) (target : CatalogBlockReference)
    (context : CatalogEngineContext) : List ZoneCatalogRecord :=
  (s.zones.records.filter (fun zone => zone.l1Channel.libSlot ≠ some target.slot)).map fun zone =>
    { zone with
      l1Channel := { zone.l1Channel with libSlot := some target.slot }
      updatedAtUnix := context.updatedAtUnix }

theorem nodup_retargetedSegments :
    ((retargetedSegments s target).map CoverageSegment.segmentId).Nodup := by
  have hkeys : ∀ l : List CoverageSegment, ((l.filterMap fun seg =>
      if seg.reachesTargetLib ≠ decide (seg.frontier = target) then
        some { seg with reachesTargetLib := decide (seg.frontier = target) }
      else none).map CoverageSegment.segmentId).Sublist (l.map CoverageSegment.segmentId) := by
    intro l
    induction l with
    | nil => exact List.Sublist.refl _
    | cons _ _ ih =>
      rw [filterMap_cons]
      split_ifs
      · exact ih.cons_cons _
      · exact ih.cons _
  exact s.segments.nodup_keys.sublist (hkeys _)

theorem nodup_retargetedZones :
    ((retargetedZones s target context).map ZoneCatalogRecord.channelId).Nodup := by
  rw [retargetedZones, map_map]
  exact s.zones.nodup_keys.sublist (filter_sublist.map _)

theorem insertAll_retargetSegment : s.segments.insertAll (retargetedSegments s target) =
      s.segments.modifyAll (retargetSegment target) (retargetSegment_segmentId target) := by
  refine insertAll_changed _ nodup_retargetedSegments (fun _ hx => ?_) fun seg hseg => ?_
  · obtain ⟨seg, hseg, h⟩ := mem_filterMap.1 hx
    rw [Option.ite_none_right_eq_some, some_inj] at h
    exact ⟨seg, hseg, h.2⟩
  · by_cases hc : seg.reachesTargetLib = decide (seg.frontier = target)
    · right
      rw [retargetSegment, ← hc]
    · left
      refine mem_filterMap.2 ⟨seg, hseg, ?_⟩
      rw [if_pos hc]
      rfl

theorem insertAll_retargetZone : s.zones.insertAll (retargetedZones s target context) =
      s.zones.modifyAll (retargetZone target context) (retargetZone_channelId target context) := by
  refine insertAll_changed _ nodup_retargetedZones (fun _ hx => ?_) fun zone hzone => ?_
  · obtain ⟨zone, hzone, rfl⟩ := mem_map.1 hx
    obtain ⟨hm, hslot⟩ := List.mem_filter.1 hzone
    rw [decide_eq_true_eq] at hslot
    exact ⟨zone, hm, by rw [retargetZone, if_neg hslot]⟩
  · by_cases hslot : zone.l1Channel.libSlot = some target.slot
    · right
      rw [retargetZone, if_pos hslot]
    · left
      refine mem_map.2 ⟨zone, List.mem_filter.2 ⟨hzone, decide_eq_true hslot⟩, ?_⟩
      rw [retargetZone, if_neg hslot]

theorem any_retargetSegment :
    reaches (s.segments.modifyAll (retargetSegment target) (retargetSegment_segmentId target))
        target =
      s.segments.records.any fun seg => decide (seg.frontier = target) := by
  simp only [reaches, Table.modifyAll, any_map, Function.comp_def, retargetSegment]
  refine congrArg _ (funext fun seg => ?_)
  by_cases h : seg.frontier = target <;> simp [h]

/-- The batch that sets the target. -/
theorem prepareCatalogCatchUpWithResume_eq_ok {resume : Bool}
    (h : prepareCatalogCatchUpWithResume s target context resume = .ok (some batch)) :
    s.metadata.updatedAtUnix ≤ context.updatedAtUnix ∧ IsHexId target.blockId ∧
    (∀ c ∈ cursor s, c.slot ≤ target.slot ∧ (c.slot = target.slot → c.blockId = target.blockId)) ∧
    ∃ frontier, batch =
      { expectedCatalogRevision := s.metadata.catalogRevision
        updatedAtUnix := context.updatedAtUnix
        upsertZones := retargetedZones s target context
        deleteZoneIds := []
        upsertEvidence := []
        deleteEvidenceIds := []
        upsertSegments := retargetedSegments s target
        deleteSegmentIds := []
        upsertGaps := []
        deleteGapIds := []
        frontier := frontier
        traversal := some { targetLib := some target, ingestionCursor := cursor s } } ∧
      frontier = some ((s.frontier.getD initialFrontier).covered target
        (s.segments.modifyAll (retargetSegment target) (retargetSegment_segmentId target))
        s.gaps) := by
  simp only [prepareCatalogCatchUpWithResume, bind_eq_ok, exists_unit, validateContext_eq_ok,
    validateReferenceOf_eq_ok, Option.forM_eq_forM, optionForM_eq_ok, reject_eq_ok, not_lt,
    not_and, not_not] at h
  obtain ⟨htime, hhex, hcur, -, h⟩ := h
  rw [← apply_ite pure, pure_eq_ok, Option.ite_none_left_eq_some, some_inj] at h
  obtain ⟨-, rfl⟩ := h
  refine ⟨htime, hhex, hcur, _, rfl, ?_⟩
  rw [CatalogFrontier.covered, any_retargetSegment]
  rfl

/-- **Setting the target.** -/
theorem prepareCatalogCatchUpWithResume_effect {resume : Bool}
    (h : prepareCatalogCatchUpWithResume s target context resume = .ok (some batch)) :
    Retargets s [] context (afterBatch s batch) target := by
  obtain ⟨htime, hhex, hcur, _, rfl, rfl⟩ := prepareCatalogCatchUpWithResume_eq_ok h
  refine ⟨rfl, hhex, hcur, insertAll_retargetSegment, rfl, insertAll_retargetZone, rfl, rfl,
    htime, rfl, rfl, ?_⟩
  simp only [afterBatch, applyBatchRecords, Table.eraseAll, foldl_nil, insertAll_retargetSegment]
  rfl

end Prepare

/-! ### Every proposal has an effect -/

section Proposals

variable {served : Set CatalogL1Block}
  {confirms : CatalogSnapshot → CatalogRepairConfirmation → Prop}

/-- What is known of an offer. -/
def OfferOk (ext : Externals) (served : Set CatalogL1Block)
    (confirms : CatalogSnapshot → CatalogRepairConfirmation → Prop) (s : CatalogSnapshot)
    (events : List CatalogL1BlockEvent) : CatalogPageReduction → Prop
  | .noProgress => True
  | .repairRequired request pending => pending = events ∧ request.lowerCheckpoint = cursor s
  | .gapConfirmationRequired request pending outcome =>
    request.lowerCheckpoint = cursor s ∧ (∀ b ∈ eventBlocks pending, b ∈ served) ∧
      ∀ b ∈ outcome.recoveredBlocks, b ∈ served
  | .commit batch remaining => ∃ context,
    Effect ext confirms s (eventBlocks (readEvents events remaining)) context (afterBatch s batch)

theorem PageAnswer.offerOk (h : PageAnswer ext confirms s events context r) :
    OfferOk ext served confirms s events r := by
  cases r with
  | noProgress => trivial
  | commit => exact ⟨context, h⟩
  | repairRequired => exact h
  | gapConfirmationRequired => exact h.elim

theorem eventBlocks_prependRecoveredEvents
    {pending : List CatalogL1BlockEvent} {snapshot : CatalogL1ChainSnapshot} :
    eventBlocks (prependRecoveredEvents blocks pending snapshot) =
      blocks ++ eventBlocks pending := by
  simp [prependRecoveredEvents, eventBlocks, Function.comp_def]

theorem Offered.spec (h : Offered ext served confirms s events r) :
    (∀ b ∈ eventBlocks events, b ∈ served) ∧ OfferOk ext served confirms s events r := by
  induction h with
  | page hs h =>
    refine ⟨fun b hb => ?_, (reduceCatalogPage_answer h).offerOk⟩
    obtain ⟨e, he, rfl⟩ := mem_map.1 hb
    exact hs e he
  | @repair _ pending _ outcome _ first _ _ hs hfirst h ih =>
    obtain ⟨hevs, rfl, hlower⟩ := ih
    have hall : ∀ b ∈ eventBlocks
        (prependRecoveredEvents outcome.recoveredBlocks pending first.snapshot), b ∈ served := by
      intro b hb
      rw [eventBlocks_prependRecoveredEvents] at hb
      exact (mem_append.1 hb).elim (hs b) (hevs b)
    refine ⟨hall, ?_⟩
    simp only [reduceCatalogRepair, bind_eq_ok, exists_unit, required_eq_ok, hfirst,
      some_inj, exists_eq_left'] at h
    obtain ⟨-, -, h⟩ := h
    cases outcome with
    | connected =>
      simp only [bind_eq_ok, exists_unit] at h
      exact (reduceCatalogPage_answer h.2).offerOk
    | unresolved =>
      simp only [bind_eq_ok, exists_unit, pure_eq_ok] at h
      obtain ⟨-, rfl⟩ := h
      exact ⟨hlower, hevs, hs⟩
  | @confirm events pending req outcome confirmation context first reduction hasked hcon hfirst h
    ih =>
    obtain ⟨-, hlower, hp, hrec⟩ := ih
    have hall : ∀ b ∈ eventBlocks
        (prependRecoveredEvents outcome.recoveredBlocks pending first.snapshot), b ∈ served := by
      intro b hb
      rw [eventBlocks_prependRecoveredEvents] at hb
      exact (mem_append.1 hb).elim (hrec b) (hp b)
    refine ⟨hall, ?_⟩
    simp only [confirmCatalogRepairGap, bind_eq_ok, exists_unit, validateContext_eq_ok,
      required_eq_ok, hfirst, some_inj, exists_eq_left', reject_eq_ok, not_not] at h
    obtain ⟨htime, -, hupper, h⟩ := h
    cases outcome with
    | connected => exact absurd h throw_ne_ok
    | unresolved blocks =>
      simp only [bind_eq_ok, exists_unit] at h
      obtain ⟨hv, h⟩ := h
      obtain ⟨hr, -⟩ := validateUnresolvedRepair_eq_ok hv
      have habove : ∀ c ∈ cursor s, ∀ e ∈ (prependRecoveredEvents blocks pending
          first.snapshot).head?, c.slot < e.block.checkpoint.slot := by
        intro c hc _ he
        rw [← hlower] at hc
        cases blocks with
        | nil =>
          rw [prependRecoveredEvents, map_nil, nil_append, hfirst] at he
          obtain rfl := some_inj.1 he
          exact hupper ▸ hr.boundary c hc
        | cons b rest =>
          obtain rfl := some_inj.1 he
          obtain ⟨_, _, hends, -, -, -, hlow, -⟩ := hr.hanging (cons_ne_nil b rest)
          obtain rfl := some_inj.1 hends.head
          exact hlow c hc
      obtain ⟨_, _, rfl, heffect⟩ := openDisconnectedSegment_effect htime habove
        (fun c hc => hr.apart c (hlower.symm ▸ hc)) h
      exact ⟨context, heffect⟩

/-- **Every batch that the engine proposes has one of the nine effects**, and reads blocks that
were served. -/
theorem Proposes.effect (h : Proposes ext served confirms s blocks batch) :
    (∀ b ∈ blocks, b ∈ served) ∧ ∃ context, Effect ext confirms s blocks context
    (afterBatch s batch) := by
  cases h with
  | prepare h =>
    exact ⟨by simp, _, .retarget _ (prepareCatalogCatchUpWithResume_effect h)⟩
  | page h =>
    obtain ⟨hs, heffect⟩ := h.spec
    refine ⟨fun _ hb => ?_, heffect⟩
    obtain ⟨_, he, rfl⟩ := mem_map.1 hb
    exact hs _ (mem_map_of_mem (mem_of_mem_take he))
  | prefixRepair hs _ h =>
    obtain ⟨reached, seg, first, last, target, f, heffect⟩ :=
      reduceCatalogPrefixRepair_effect h
    exact ⟨hs, _, .repairPrefix reached seg first last target f heffect⟩
  | gapRepair hs hcon h =>
    exact ⟨hs, _, reduceCatalogGapRepair_effect hcon h⟩

/-- **What a step does**: it reads served blocks, has one of the nine effects, and leaves a
valid catalog. -/
theorem Step.effect {s' : CatalogSnapshot} (h : Step ext served confirms s blocks s') :
    (∀ b ∈ blocks, b ∈ served) ∧ ValidSnapshot s' ∧
      ∃ context, Effect ext confirms s blocks context s' := by
  obtain ⟨_, hp, hc⟩ := h
  obtain ⟨-, -, -, -, -, hv, rfl⟩ := committed_iff.1 hc
  exact ⟨hp.effect.1, hv, hp.effect.2⟩

end Proposals

end LogosInspector.Catalog
