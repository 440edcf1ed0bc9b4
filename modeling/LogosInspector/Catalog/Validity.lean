import LogosInspector.Catalog.Engine
import LogosInspector.Catalog.Store

/-!
# What the store's checks say

Each check of `Catalog.Model` and `Catalog.Store` succeeds
exactly when its record has certain properties. This file states them as structures – one
field per property – and proves the equivalences, so that no later proof unfolds a check:
`validSnapshot_iff` for a whole catalog, `validBatch_iff` for a batch.

The second half describes **commits**. `afterBatch` is the catalog a batch leads to, whether
it is valid or not; a batch is committed when the store accepts it, and the catalog after
the commit is that one (`committed_iff`).
-/

namespace LogosInspector.Catalog

open List Table

/-! ### Records -/

/-- What `validateSegment` checks. -/
@[mk_iff] structure SegmentOk (segment : CoverageSegment) : Prop where
  id : IsLocalId segment.segmentId
  floorId : IsHexId segment.floor.blockId
  parentId : IsHexId segment.floor.parentId
  frontierId : IsHexId segment.frontier.blockId
  range : segment.floor.slot ≤ segment.frontier.slot
  single : segment.frontier.slot = segment.floor.slot →
    segment.frontier.blockId = segment.floor.blockId

theorem validateSegment_eq_ok {seg : CoverageSegment} :
    validateSegment seg = .ok () ↔ SegmentOk seg := by
  simp only [segmentOk_iff, validateSegment, validateLocalId, validateCheckpoint, validateHexId,
    validateBlockReference, bind_eq_ok, exists_unit, invalid_eq_ok, not_not, not_lt, not_and,
    and_assoc]

/-- What `validateGap` checks. -/
@[mk_iff] structure GapOk (gap : CoverageGap) : Prop where
  id : IsLocalId gap.gapId
  lowerId : IsLocalId gap.lowerSegmentId
  upperId : IsLocalId gap.upperSegmentId
  lowerCheckpoint : IsHexId gap.lowerCheckpoint.blockId
  upperBlock : IsHexId gap.upperBlock.blockId
  parentId : IsHexId gap.requiredParentId
  distinct : gap.lowerSegmentId ≠ gap.upperSegmentId
  ascending : gap.lowerCheckpoint.slot < gap.upperBlock.slot

variable {gap : CoverageGap} {reference : ZoneEvidenceReference} {frontier : CatalogFrontier}
  {metadata : CatalogMetadata} {s : CatalogSnapshot} {validateDelete : Text → CatalogResult Unit}
  {deletes : List Text}

theorem validateGap_eq_ok : validateGap gap = .ok () ↔ GapOk gap := by
  simp only [gapOk_iff, validateGap, validateLocalId, validateHexId, validateBlockReference,
    bind_eq_ok, exists_unit, invalid_eq_ok, not_not, not_le, ne_eq]

/-- What `validateEvidence` checks. -/
@[mk_iff] structure EvidenceOk (reference : ZoneEvidenceReference) : Prop where
  id : IsLocalId reference.evidenceId
  channelId : IsHexId reference.channelId
  segmentId : IsLocalId reference.coverageSegmentId
  blockId : IsHexId reference.blockId
  transactionHash : ∀ hash ∈ reference.transactionHash, IsHexId hash
  messageId : ∀ value ∈ reference.messageId, ¬ (value = [] ∨ value.any Text.isControl = true)

theorem validateEvidence_eq_ok : validateEvidence reference = .ok () ↔ EvidenceOk reference := by
  simp only [evidenceOk_iff, validateEvidence, validateLocalId, validateHexId, bind_eq_ok,
    exists_unit, invalid_eq_ok, Option.forM_eq_forM, optionForM_eq_ok, not_not, not_exists,
    not_and]

/-- What is checked of a committee. -/
@[mk_iff] structure CommitteeOk (committee : SequencerCommitteeSummary) : Prop where
  members : ∀ member ∈ committee.members, IsLocalId member
  nodup : committee.members.Nodup
  active : ∀ active ∈ committee.activeMember, active ∈ committee.members

variable {seen : List Text}

theorem validateCommitteeMembers_eq_ok {members : List Text} :
    validateCommitteeMembers seen members = .ok () ↔
      (∀ member ∈ members, IsLocalId member) ∧ members.Nodup ∧
        ∀ member ∈ members, member ∉ seen := by
  induction members generalizing seen with
  | nil => simp [validateCommitteeMembers]
  | cons _ _ ih =>
    simp only [validateCommitteeMembers, validateLocalId, bind_eq_ok, exists_unit, invalid_eq_ok,
      not_not, ih, forall_mem_cons, nodup_cons, mem_append, mem_singleton,
      not_or]
    constructor
    · rintro ⟨h₁, h₂, h₃, h₄, h₅⟩
      exact ⟨⟨h₁, h₃⟩, ⟨fun h => (h₅ _ h).2 rfl, h₄⟩, h₂, fun m hm => (h₅ m hm).1⟩
    · rintro ⟨⟨h₁, h₂⟩, ⟨h₃, h₄⟩, h₅, h₆⟩
      exact ⟨h₁, h₅, h₂, h₄, fun m hm => ⟨h₆ m hm, fun h => h₃ (h ▸ hm)⟩⟩

theorem validateCommittee_eq_ok {committee : SequencerCommitteeSummary} :
    validateCommittee committee = .ok () ↔ CommitteeOk committee := by
  simp only [committeeOk_iff, validateCommittee, bind_eq_ok, exists_unit, invalid_eq_ok,
    validateCommitteeMembers_eq_ok, not_exists, not_and, not_not, not_mem_nil,
    not_false_eq_true, implies_true, and_true, and_assoc]

/-- What `validateZone` checks. -/
@[mk_iff] structure ZoneOk (record : ZoneCatalogRecord) : Prop where
  channelId : IsHexId record.channelId
  label : ∀ label ∈ record.observedLabel, IsZoneLabel label
  tipHash : ∀ hash ∈ record.l1Channel.tipHash, IsHexId hash
  committee : ∀ committee ∈ record.sequencerCommittee, CommitteeOk committee
  latestEvidenceId : IsLocalId record.latestEvidenceId
  segmentId : IsLocalId record.snapshotProvenance.coverageSegmentId
  slots : record.firstSeenSlot ≤ record.lastSeenSlot
  evidenceCount : record.evidenceCount ≠ 0

theorem validateZone_eq_ok {record : ZoneCatalogRecord} :
    validateZone record = .ok () ↔ ZoneOk record := by
  simp only [zoneOk_iff, validateZone, validateLocalId, validateHexId, bind_eq_ok, exists_unit,
    invalid_eq_ok, Option.forM_eq_forM, optionForM_eq_ok, validateCommittee_eq_ok, not_not,
    not_exists, not_and, not_lt, ne_eq]

/-- What `validateFrontier` checks. -/
structure FrontierOk (frontier : CatalogFrontier) : Prop where
  checkpoint : ∀ checkpoint ∈ frontier.checkpoint,
    IsHexId checkpoint.blockId ∧ IsHexId checkpoint.parentId
  scanned : frontier.scannedThroughSlot = frontier.checkpoint.map CatalogBlockCheckpoint.slot
  observedLib : ∀ lib ∈ frontier.observedLib, IsHexId lib.blockId ∧
    ∀ slot ∈ frontier.scannedThroughSlot, slot ≤ lib.slot
  floor : ∀ floor ∈ frontier.coverageFloor, ∃ scanned ∈ frontier.scannedThroughSlot, floor ≤ scanned

theorem validateFrontierCheckpoint_eq_ok :
    validateFrontierCheckpoint frontier = .ok () ↔ (∀ cp ∈ frontier.checkpoint,
        IsHexId cp.blockId ∧ IsHexId cp.parentId) ∧
      frontier.scannedThroughSlot = frontier.checkpoint.map CatalogBlockCheckpoint.slot := by
  unfold validateFrontierCheckpoint
  cases frontier.checkpoint with
  | none => simp
  | some _ =>
    simp [validateCheckpoint, validateHexId, and_assoc]

theorem validateFrontier_eq_ok : validateFrontier frontier = .ok () ↔ FrontierOk frontier := by
  simp only [validateFrontier, validateHexId, validateBlockReference, bind_eq_ok, exists_unit,
    invalid_eq_ok, Option.forM_eq_forM, optionForM_eq_ok, validateFrontierCheckpoint_eq_ok,
    not_not, not_exists, not_and, not_lt, not_forall]
  constructor
  · rintro ⟨⟨h₁, h₂⟩, h₃, h₄⟩
    refine ⟨h₁, h₂, h₃, fun floor hfloor => ?_⟩
    obtain ⟨scanned, hs, hle⟩ := h₄ floor hfloor
    exact ⟨scanned, hs, hle⟩
  · intro h
    refine ⟨⟨h.checkpoint, h.scanned⟩, h.observedLib, fun floor hfloor => ?_⟩
    obtain ⟨scanned, hs, hle⟩ := h.floor floor hfloor
    exact ⟨scanned, hs, hle⟩

/-- What `validateTraversal` checks. -/
@[mk_iff] structure TraversalOk (traversal : CatalogTraversal) : Prop where
  target : ∀ target ∈ traversal.targetLib, IsHexId target.blockId
  cursor : ∀ cursor ∈ traversal.ingestionCursor, IsHexId cursor.blockId ∧
    ∀ target ∈ traversal.targetLib, cursor.slot ≤ target.slot

theorem validateTraversal_eq_ok {traversal : CatalogTraversal} :
    validateTraversal traversal = .ok () ↔ TraversalOk traversal := by
  simp only [traversalOk_iff, validateTraversal, validateHexId, validateBlockReference, bind_eq_ok,
    exists_unit, invalid_eq_ok, Option.forM_eq_forM, optionForM_eq_ok, not_not, not_exists, not_and,
    not_lt]

/-! ### Records among others -/

/-- What `validateEvidenceRelationship` checks. -/
structure EvidenceIn (segments : SegmentTable) (reference : ZoneEvidenceReference) : Prop where
  ok : EvidenceOk reference
  segment : ∃ segment ∈ segments, segment.segmentId = reference.coverageSegmentId ∧
    segment.floor.slot ≤ reference.l1Slot ∧ reference.l1Slot ≤ segment.frontier.slot

variable {segments : SegmentTable}

theorem validateEvidenceRelationship_eq_ok :
    validateEvidenceRelationship segments reference = .ok () ↔ EvidenceIn segments reference := by
  simp only [validateEvidenceRelationship, bind_eq_ok, exists_unit, validatePersisted_eq_ok,
    validateEvidence_eq_ok, persistedRecord_eq_ok, persistedInvariant_eq_ok,
    find?_eq_some, not_or, not_lt]
  constructor
  · rintro ⟨h₁, seg, ⟨h₂, h₃⟩, h₄⟩
    exact ⟨h₁, seg, h₂, h₃, h₄⟩
  · rintro ⟨h₁, seg, h₂, h₃, h₄⟩
    exact ⟨h₁, seg, ⟨h₂, h₃⟩, h₄⟩

/-- What `validateZoneRelationship` checks. -/
structure ZoneIn (segments : SegmentTable) (evidence : EvidenceTable)
    (zone : ZoneCatalogRecord) : Prop where
  ok : ZoneOk zone
  segment : ∃ segment ∈ segments, segment.segmentId = zone.snapshotProvenance.coverageSegmentId ∧
    segment.floor.slot ≤ zone.snapshotProvenance.observedSlot ∧
    zone.snapshotProvenance.observedSlot ≤ segment.frontier.slot
  latest : ∃ reference ∈ evidence, reference.evidenceId = zone.latestEvidenceId ∧
    reference.channelId = zone.channelId

theorem validateZoneRelationship_eq_ok {evidence : EvidenceTable} {zone : ZoneCatalogRecord} :
    validateZoneRelationship segments evidence zone = .ok () ↔ ZoneIn segments evidence zone := by
  simp only [validateZoneRelationship, bind_eq_ok, exists_unit, validatePersisted_eq_ok,
    validateZone_eq_ok, persistedRecord_eq_ok, persistedInvariant_eq_ok,
    find?_eq_some, not_or, not_lt, not_not]
  constructor
  · rintro ⟨h₁, seg, ⟨h₂, h₃⟩, h₄, reference, ⟨h₅, h₆⟩, h₇⟩
    exact ⟨h₁, ⟨seg, h₂, h₃, h₄⟩, ⟨reference, h₅, h₆, h₇⟩⟩
  · rintro ⟨h₁, ⟨seg, h₂, h₃, h₄⟩, ⟨reference, h₅, h₆, h₇⟩⟩
    exact ⟨h₁, seg, ⟨h₂, h₃⟩, h₄, reference, ⟨h₅, h₆⟩, h₇⟩

/-- What `validateGapRelationship` checks. -/
structure GapIn (segments : SegmentTable) (gap : CoverageGap) : Prop where
  ok : GapOk gap
  lower : ∃ segment ∈ segments, segment.segmentId = gap.lowerSegmentId ∧
    segment.frontier = gap.lowerCheckpoint
  upper : ∃ segment ∈ segments, segment.segmentId = gap.upperSegmentId ∧
    blockReference segment.floor = gap.upperBlock ∧
    segment.floor.parentId = gap.requiredParentId

theorem validateGapRelationship_eq_ok :
    validateGapRelationship segments gap = .ok () ↔ GapIn segments gap := by
  simp only [validateGapRelationship, bind_eq_ok, exists_unit, validatePersisted_eq_ok,
    validateGap_eq_ok, persistedRecord_eq_ok, persistedInvariant_eq_ok,
    find?_eq_some, not_or, not_not]
  constructor
  · rintro ⟨h₁, lower, ⟨h₂, h₃⟩, upper, ⟨h₄, h₅⟩, h₆, h₇, h₈, h₉⟩
    refine ⟨h₁, ⟨lower, h₂, h₃, h₆⟩, ⟨upper, h₄, h₅, ?_, h₉⟩⟩
    rw [blockReference, h₇, h₈]
  · rintro ⟨h₁, ⟨lower, h₂, h₃, h₆⟩, ⟨upper, h₄, h₅, h₇, h₉⟩⟩
    refine ⟨h₁, lower, ⟨h₂, h₃⟩, upper, ⟨h₄, h₅⟩, h₆, ?_, ?_, h₉⟩
    · rw [← h₇, blockReference_slot]
    · rw [← h₇, blockReference_blockId]

/-! ### A whole catalog -/

/-- What is checked of the records outside the tables. -/
@[mk_iff] structure HeadOk (metadata : CatalogMetadata) (frontier : Option CatalogFrontier)
    (traversal : Option CatalogTraversal) : Prop where
  metadataOk : validateMetadata metadata = .ok ()
  time : metadata.createdAtUnix ≤ metadata.updatedAtUnix
  frontierOk : ∀ f ∈ frontier, FrontierOk f
  traversalOk : ∀ t ∈ traversal, TraversalOk t

theorem validateSnapshotHead_eq_ok
    {frontier : Option CatalogFrontier} {traversal : Option CatalogTraversal} :
    validateSnapshotHead metadata frontier traversal = .ok () ↔
      HeadOk metadata frontier traversal := by
  simp only [validateSnapshotHead, bind_eq_ok, exists_unit, validatePersisted_eq_ok,
    persistedInvariant_eq_ok, Option.forM_eq_forM, optionForM_eq_ok, validateFrontier_eq_ok,
    validateTraversal_eq_ok, not_lt, headOk_iff]

/-- **What the check of a whole catalog checks.** -/
structure ValidSnapshot (s : CatalogSnapshot) : Prop where
  head : HeadOk s.metadata s.frontier s.traversal
  segments : ∀ segment ∈ s.segments, SegmentOk segment
  evidence : ∀ reference ∈ s.evidence, EvidenceIn s.segments reference
  counts : ∀ reference ∈ s.evidence, evidenceCountOf s.evidence reference.channelId < 2 ^ 64
  zones : ∀ zone ∈ s.zones, ZoneIn s.segments s.evidence zone ∧
    zone.evidenceCount = evidenceCountOf s.evidence zone.channelId
  known : ∀ reference ∈ s.evidence, ∃ zone ∈ s.zones, zone.channelId = reference.channelId
  gaps : ∀ gap ∈ s.gaps, GapIn s.segments gap

theorem validSnapshot_iff : validateSnapshot s = .ok () ↔ ValidSnapshot s := by
  have hknown : (∀ orphan ∈ s.evidence.records.find?
        (fun reference => !s.zones.contains reference.channelId),
      (throw (.invalidated .recordInvariant
        ("evidence exists for missing Zone " ++ orphan.channelId.toMessage)) : CatalogResult Unit)
          = .ok ()) ↔
      ∀ reference ∈ s.evidence, ∃ zone ∈ s.zones, zone.channelId = reference.channelId := by
    simp only [throw_ne_ok, imp_false, ← Table.contains_iff]
    rw [← Option.eq_none_iff_forall_not_mem, find?_eq_none]
    simp [Table.mem_records]
  simp only [validateSnapshot, bind_eq_ok, exists_unit, validateSnapshotHead_eq_ok, forM_eq_ok,
    validatePersisted_eq_ok, validateSegment_eq_ok, validateEvidenceRelationship_eq_ok,
    persistedInvariant_eq_ok, validateZoneRelationship_eq_ok, Option.forM_eq_forM,
    optionForM_eq_ok, validateGapRelationship_eq_ok, hknown, Table.mem_records, not_not,
    not_exists, not_and, not_le]
  constructor
  all_goals
    rintro ⟨h₁, h₂, h₃, h₄, h₅, h₆, h₇⟩
    exact ⟨h₁, h₂, h₃, h₄, fun z hz => ⟨(h₅ z hz).1, (h₅ z hz).2.symm⟩, h₆, h₇⟩

/-! ### A batch -/

/-- What is checked of the records a batch writes to a table and the keys it deletes. -/
@[mk_iff] structure RecordKeysOk {α : Type} (upserts : List α) (deletes : List Text)
    (keyOf : α → Text) (ok : α → Prop) (okKey : Text → Prop) : Prop where
  upsertsOk : ∀ record ∈ upserts, ok record
  upsertKeys : (upserts.map keyOf).Nodup
  deletesOk : ∀ key ∈ deletes, okKey key
  deleteKeys : deletes.Nodup
  disjoint : ∀ key ∈ deletes, key ∉ upserts.map keyOf

variable {label : String}

theorem validateUpserts_eq_ok {α : Type} {keyOf : α → Text} {validate : α → CatalogResult Unit}
    {upserts : List α} :
    validateUpserts keyOf validate label seen upserts = .ok () ↔
      (∀ record ∈ upserts, validate record = .ok ()) ∧ (upserts.map keyOf).Nodup ∧
        ∀ record ∈ upserts, keyOf record ∉ seen := by
  induction upserts generalizing seen with
  | nil => simp [validateUpserts]
  | cons _ _ ih =>
    simp only [validateUpserts, bind_eq_ok, exists_unit, invalid_eq_ok, ih,
      map_cons, nodup_cons, mem_cons, forall_eq_or_imp, not_or, mem_map,
      not_exists, not_and]
    constructor
    · rintro ⟨h₁, h₂, h₃, h₄, h₅⟩
      exact ⟨⟨h₁, h₃⟩, ⟨fun r hr => (h₅ r hr).1, h₄⟩, h₂, fun r hr => (h₅ r hr).2⟩
    · rintro ⟨⟨h₁, h₂⟩, ⟨h₃, h₄⟩, h₅, h₆⟩
      exact ⟨h₁, h₅, h₂, h₄, fun r hr => ⟨h₃ r hr, h₆ r hr⟩⟩

theorem validateDeletes_eq_ok
    {upserted : List Text} :
    validateDeletes validateDelete label upserted seen deletes = .ok () ↔
      (∀ key ∈ deletes, validateDelete key = .ok ()) ∧ deletes.Nodup ∧
        (∀ key ∈ deletes, key ∉ seen) ∧ ∀ key ∈ deletes, key ∉ upserted := by
  induction deletes generalizing seen with
  | nil => simp [validateDeletes]
  | cons key _ ih =>
    simp only [validateDeletes, bind_eq_ok, exists_unit, invalid_eq_ok, ih,
      nodup_cons, mem_cons, forall_eq_or_imp, not_or]
    constructor
    · rintro ⟨h₁, h₂, h₃, h₄, h₅, h₆, h₇⟩
      exact ⟨⟨h₁, h₄⟩, ⟨fun h => (h₆ key h).1 rfl, h₅⟩, ⟨h₂, fun k hk => (h₆ k hk).2⟩, h₃, h₇⟩
    · rintro ⟨⟨h₁, h₄⟩, ⟨h, h₅⟩, ⟨h₂, h₆⟩, h₃, h₇⟩
      exact ⟨h₁, h₂, h₃, h₄, h₅, fun k hk => ⟨fun he => h (he ▸ hk), h₆ k hk⟩, h₇⟩

theorem validateRecordKeys_eq_ok {α : Type} {upserts : List α}
    {keyOf : α → Text} {validate : α → CatalogResult Unit}
    {ok : α → Prop} {okKey : Text → Prop}
    (hok : ∀ r, validate r = .ok () ↔ ok r) (hkey : ∀ k, validateDelete k = .ok () ↔ okKey k) :
    validateRecordKeys upserts deletes keyOf validate validateDelete label = .ok () ↔
      RecordKeysOk upserts deletes keyOf ok okKey := by
  simp only [recordKeysOk_iff, validateRecordKeys, bind_eq_ok, exists_unit, validateUpserts_eq_ok,
    validateDeletes_eq_ok, hok, hkey, not_mem_nil, not_false_eq_true, implies_true,
    and_true, true_and, and_assoc]

/-- **What the check of a batch checks.** -/
structure ValidBatch (batch : CatalogBatch) : Prop where
  frontier : ∀ f ∈ batch.frontier, FrontierOk f
  traversal : ∀ t ∈ batch.traversal, TraversalOk t
  zones : RecordKeysOk batch.upsertZones batch.deleteZoneIds ZoneCatalogRecord.channelId
    ZoneOk IsHexId
  evidence : RecordKeysOk batch.upsertEvidence batch.deleteEvidenceIds
    ZoneEvidenceReference.evidenceId EvidenceOk IsLocalId
  segments : RecordKeysOk batch.upsertSegments batch.deleteSegmentIds
    CoverageSegment.segmentId SegmentOk IsLocalId
  gaps : RecordKeysOk batch.upsertGaps batch.deleteGapIds CoverageGap.gapId GapOk IsLocalId

variable {batch : CatalogBatch}

theorem validBatch_iff : validateBatch batch = .ok () ↔ ValidBatch batch := by
  have hhex (label : String) (k : Text) : validateHexId k label = .ok () ↔ IsHexId k := by
    simp [validateHexId]
  have hlocal (label : String) (k : Text) : validateLocalId k label = .ok () ↔ IsLocalId k := by
    simp [validateLocalId]
  simp only [validateBatch, bind_eq_ok, exists_unit, Option.forM_eq_forM, optionForM_eq_ok,
    validateFrontier_eq_ok, validateTraversal_eq_ok,
    validateRecordKeys_eq_ok (fun _ => validateZone_eq_ok) (hhex _),
    validateRecordKeys_eq_ok (fun _ => validateEvidence_eq_ok) (hlocal _),
    validateRecordKeys_eq_ok (fun _ => validateSegment_eq_ok) (hlocal _),
    validateRecordKeys_eq_ok (fun _ => validateGap_eq_ok) (hlocal _)]
  constructor
  · rintro ⟨h₁, h₂, h₃, h₄, h₅, h₆⟩
    exact ⟨h₁, h₂, h₃, h₄, h₅, h₆⟩
  · exact fun h => ⟨h.frontier, h.traversal, h.zones, h.evidence, h.segments, h.gaps⟩

/-! ### Commits -/

/-- The catalog that a batch leads to. -/
def afterBatch (s : CatalogSnapshot) (batch : CatalogBatch) : CatalogSnapshot :=
  { applyBatchRecords s batch with
    metadata := { s.metadata with
      catalogRevision := s.metadata.catalogRevision + 1
      updatedAtUnix := batch.updatedAtUnix } }

/-- **The store commits a batch**, and returns the catalog `s'`. -/
def Committed (s : CatalogSnapshot) (batch : CatalogBatch) (s' : CatalogSnapshot) : Prop :=
  (commitBatch s batch).2 = .ok s'

theorem nextMetadata_eq_ok {next : CatalogMetadata} :
    nextMetadata metadata batch = .ok next ↔ validateMetadata metadata = .ok () ∧
      metadata.catalogRevision = batch.expectedCatalogRevision ∧
      metadata.updatedAtUnix ≤ batch.updatedAtUnix ∧ metadata.catalogRevision + 1 < 2 ^ 64 ∧
      next = { metadata with
        catalogRevision := metadata.catalogRevision + 1
        updatedAtUnix := batch.updatedAtUnix } := by
  simp only [nextMetadata, bind_eq_ok, exists_unit, validatePersisted_eq_ok, reject_eq_ok,
    invalid_eq_ok, pure_eq_ok, not_not, not_lt, not_le, eq_comm (a := next)]

/-- When the store commits a batch, and to what. -/
theorem committed_iff {s' : CatalogSnapshot} : Committed s batch s' ↔
      ValidBatch batch ∧ validateMetadata s.metadata = .ok () ∧
      s.metadata.catalogRevision = batch.expectedCatalogRevision ∧
      s.metadata.updatedAtUnix ≤ batch.updatedAtUnix ∧
      s.metadata.catalogRevision + 1 < 2 ^ 64 ∧
      ValidSnapshot (afterBatch s batch) ∧ s' = afterBatch s batch := by
  have hrun : Committed s batch s' ↔ ∃ staged, commitTransaction s none batch =
      .ok (staged, s') := by
    simp only [Committed, commitBatch, runTransaction]
    cases commitTransaction s none batch with
    | error _ => simp
    | ok r =>
      obtain ⟨_, _⟩ := r
      simp
  rw [hrun]
  simp only [commitTransaction, bind_eq_ok, exists_unit, validBatch_iff, nextMetadata_eq_ok,
    mapError_eq_ok, readSnapshot, validSnapshot_iff, pure_eq_ok, Prod.mk.injEq]
  constructor
  · rintro ⟨_, h₁, _, ⟨h₂, h₃, h₄, h₅, rfl⟩, _, ⟨h₆, rfl⟩, -, rfl⟩
    exact ⟨h₁, h₂, h₃, h₄, h₅, h₆, rfl⟩
  · rintro ⟨h₁, h₂, h₃, h₄, h₅, h₆, rfl⟩
    exact ⟨_, h₁, _, ⟨h₂, h₃, h₄, h₅, rfl⟩, _, ⟨h₆, rfl⟩, rfl, rfl⟩

/-- The catalog that the store creates: nothing has been read. -/
def newCatalog (metadata : CatalogMetadata) : CatalogSnapshot where
  metadata := metadata
  frontier := none
  traversal := none
  zones := Table.empty
  evidence := Table.empty
  segments := Table.empty
  gaps := Table.empty

/-- A canonical id: one digit, repeated. -/
def sampleId (digit : Char) : Text := List.replicate 64 digit

/-- The metadata of a new catalog of a network known by its first block. -/
def sampleMetadata : CatalogMetadata where
  catalogFileId := "catalog".toList
  networkScope := .genesisId (sampleId '0')
  identityAliases := []
  identityAssurance := .sourceAttested
  identityTransition := none
  catalogRevision := 0
  createdAtUnix := 1
  updatedAtUnix := 1

end LogosInspector.Catalog
