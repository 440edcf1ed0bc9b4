import LogosInspector.Catalog.Model

/-!
# The store of the catalog

The catalog is persisted in a key-value database whose tables are ordered by key and whose
write transactions are atomic: a transaction that is dropped leaves no trace. Its state is
what `snapshot()` reads from it, a `CatalogSnapshot`.

A batch of changes is committed in two ways. `commitBatch` applies it to the tables, reads
all of them back, and checks the whole (`validateSnapshot`). `commitBatchFromSnapshot` is
given the catalog as it was read before: it applies the batch to that copy, and checks only
what the batch can have broken (`validateIncrementalSnapshot`).
-/

namespace LogosInspector.Catalog

/-! ### What the records must satisfy together -/

/-- Reject a catalog with a message. -/
def persistedInvariant (bad : Prop) [Decidable bad] (detail : String) : CatalogResult Unit :=
  reject bad (.invalidated .recordInvariant detail)

@[simp] theorem persistedInvariant_eq_ok {bad : Prop} [Decidable bad] {detail : String}
    {u : Unit} : persistedInvariant bad detail = .ok u ↔ ¬ bad := reject_eq_ok

/-- A record of a catalog, or the message that it is missing. -/
def persistedRecord {α : Type} (record : Option α) (detail : String) : CatalogResult α :=
  required record (.invalidated .recordInvariant detail)

@[simp] theorem persistedRecord_eq_ok {α : Type} {r : Option α} {detail : String} {a : α} :
    persistedRecord r detail = .ok a ↔ r = some a := required_eq_ok

def validatePersisted (result : CatalogResult Unit) (label : String) : CatalogResult Unit :=
  match result with
  | .ok () => .ok ()
  | .error error => .error (.invalidated .recordInvariant
      ("persisted " ++ label ++ " is invalid: " ++ error.toText))

@[simp] theorem validatePersisted_eq_ok {result : CatalogResult Unit} {label : String}
    {u : Unit} : validatePersisted result label = .ok u ↔ result = .ok () := by
  cases result <;> simp [validatePersisted]

def validateEvidenceRelationship (segments : SegmentTable)
    (reference : ZoneEvidenceReference) : CatalogResult Unit := do
  validatePersisted (validateEvidence reference) "evidence reference"
  let segment ← persistedRecord (segments.find? reference.coverageSegmentId)
    ("evidence " ++ reference.evidenceId.toMessage ++ " references missing coverage segment " ++
      reference.coverageSegmentId.toMessage)
  persistedInvariant (reference.l1Slot < segment.floor.slot ∨
      segment.frontier.slot < reference.l1Slot)
    ("evidence " ++ reference.evidenceId.toMessage ++ " falls outside coverage segment " ++
      reference.coverageSegmentId.toMessage)

def validateZoneRelationship (segments : SegmentTable) (evidence : EvidenceTable)
    (zone : ZoneCatalogRecord) : CatalogResult Unit := do
  validatePersisted (validateZone zone) "Zone"
  let segment ← persistedRecord (segments.find? zone.snapshotProvenance.coverageSegmentId)
    ("Zone " ++ zone.channelId.toMessage ++ " references missing coverage segment " ++
      zone.snapshotProvenance.coverageSegmentId.toMessage)
  persistedInvariant (zone.snapshotProvenance.observedSlot < segment.floor.slot ∨
      segment.frontier.slot < zone.snapshotProvenance.observedSlot)
    ("Zone " ++ zone.channelId.toMessage ++ " snapshot falls outside coverage segment " ++
      zone.snapshotProvenance.coverageSegmentId.toMessage)
  let latestEvidence ← persistedRecord (evidence.find? zone.latestEvidenceId)
    ("Zone " ++ zone.channelId.toMessage ++ " references missing latest evidence " ++
      zone.latestEvidenceId.toMessage)
  persistedInvariant (latestEvidence.channelId ≠ zone.channelId)
    ("Zone " ++ zone.channelId.toMessage ++ " latest evidence belongs to Channel " ++
      latestEvidence.channelId.toMessage)

def validateGapRelationship (segments : SegmentTable) (gap : CoverageGap) : CatalogResult Unit := do
  validatePersisted (validateGap gap) "coverage gap"
  let lowerSegment ← persistedRecord (segments.find? gap.lowerSegmentId)
    ("coverage gap " ++ gap.gapId.toMessage ++ " references missing lower segment " ++
      gap.lowerSegmentId.toMessage)
  let upperSegment ← persistedRecord (segments.find? gap.upperSegmentId)
    ("coverage gap " ++ gap.gapId.toMessage ++ " references missing upper segment " ++
      gap.upperSegmentId.toMessage)
  persistedInvariant (lowerSegment.frontier ≠ gap.lowerCheckpoint ∨
      upperSegment.floor.slot ≠ gap.upperBlock.slot ∨
      upperSegment.floor.blockId ≠ gap.upperBlock.blockId ∨
      upperSegment.floor.parentId ≠ gap.requiredParentId)
    ("coverage gap " ++ gap.gapId.toMessage ++ " does not match its segment boundaries")

/-- The number of pieces of evidence of a channel. -/
def evidenceCountOf (evidence : EvidenceTable) (channelId : Text) : ℕ :=
  (evidence.records.filter (fun reference => reference.channelId = channelId)).length

/-- The message about a zone whose evidence is miscounted. -/
def countMismatch (zone : ZoneCatalogRecord) (count : ℕ) : String :=
  "Zone " ++ zone.channelId.toMessage ++ " evidence count is " ++ toString zone.evidenceCount ++
    ", but " ++ toString count ++ " references are persisted"

/-- The parts of the check that do not look into the tables. -/
def validateSnapshotHead (metadata : CatalogMetadata) (frontier : Option CatalogFrontier)
    (traversal : Option CatalogTraversal) : CatalogResult Unit := do
  validatePersisted (validateMetadata metadata) "catalog metadata"
  persistedInvariant (metadata.updatedAtUnix < metadata.createdAtUnix)
    "catalog update time precedes creation time"
  frontier.forM fun frontier =>
    validatePersisted (validateFrontier frontier) "catalog frontier"
  traversal.forM fun traversal =>
    validatePersisted (validateTraversal traversal) "catalog traversal"

/-- **The check of a whole catalog.** -/
def validateSnapshot (snapshot : CatalogSnapshot) : CatalogResult Unit := do
  validateSnapshotHead snapshot.metadata snapshot.frontier snapshot.traversal
  forM snapshot.segments.records fun segment =>
    validatePersisted (validateSegment segment) "coverage segment"
  forM snapshot.evidence.records (validateEvidenceRelationship snapshot.segments)
  persistedInvariant (∃ reference ∈ snapshot.evidence.records,
      2 ^ 64 ≤ evidenceCountOf snapshot.evidence reference.channelId)
    "Zone evidence count overflow"
  forM snapshot.zones.records fun zone => do
    validateZoneRelationship snapshot.segments snapshot.evidence zone
    let persistedCount := evidenceCountOf snapshot.evidence zone.channelId
    persistedInvariant (persistedCount ≠ zone.evidenceCount) (countMismatch zone persistedCount)
  (snapshot.evidence.records.find?
      (fun reference => !snapshot.zones.contains reference.channelId)).forM fun orphan =>
    throw (.invalidated .recordInvariant
      ("evidence exists for missing Zone " ++ orphan.channelId.toMessage))
  forM snapshot.gaps.records (validateGapRelationship snapshot.segments)

/-! ### The check of a batch on its own -/

/-- The records to write in turn; `seen` are the keys of those before. -/
def validateUpserts {α : Type} (keyOf : α → Text) (validate : α → CatalogResult Unit)
    (label : String) (seen : List Text) : List α → CatalogResult Unit
  | [] => pure ()
  | record :: rest => do
    validate record
    invalid (keyOf record ∈ seen) ("duplicate " ++ label ++ " upsert key " ++
      (keyOf record).toMessage)
    validateUpserts keyOf validate label (keyOf record :: seen) rest

/-- The keys to delete in turn; `seen` are those before, `upserted` the keys written. -/
def validateDeletes (validateDelete : Text → CatalogResult Unit) (label : String)
    (upserted seen : List Text) : List Text → CatalogResult Unit
  | [] => pure ()
  | key :: rest => do
    validateDelete key
    invalid (key ∈ seen) ("duplicate " ++ label ++ " delete key " ++ key.toMessage)
    invalid (key ∈ upserted) (label ++ " key " ++ key.toMessage ++ " is both upserted and deleted")
    validateDeletes validateDelete label upserted (key :: seen) rest

def validateRecordKeys {α : Type} (upserts : List α) (deletes : List Text)
    (keyOf : α → Text) (validate : α → CatalogResult Unit)
    (validateDelete : Text → CatalogResult Unit) (label : String) : CatalogResult Unit := do
  validateUpserts keyOf validate label [] upserts
  validateDeletes validateDelete label (upserts.map keyOf) [] deletes

def validateBatch (batch : CatalogBatch) : CatalogResult Unit := do
  batch.frontier.forM validateFrontier
  batch.traversal.forM validateTraversal
  validateRecordKeys batch.upsertZones batch.deleteZoneIds ZoneCatalogRecord.channelId
    validateZone (validateHexId · "deleted Channel id") "Zone"
  validateRecordKeys batch.upsertEvidence batch.deleteEvidenceIds
    ZoneEvidenceReference.evidenceId validateEvidence
    (validateLocalId · "deleted evidence id") "evidence reference"
  validateRecordKeys batch.upsertSegments batch.deleteSegmentIds CoverageSegment.segmentId
    validateSegment (validateLocalId · "deleted coverage segment id") "coverage segment"
  validateRecordKeys batch.upsertGaps batch.deleteGapIds CoverageGap.gapId
    validateGap (validateLocalId · "deleted coverage gap id") "coverage gap"

/-! ### Applying a batch -/

/-- The tables after a batch, as the database has them: records are written, then keys
deleted. -/
def applyBatchRecords (persisted : CatalogSnapshot) (batch : CatalogBatch) : CatalogSnapshot :=
  { persisted with
    zones := (persisted.zones.insertAll batch.upsertZones).eraseAll batch.deleteZoneIds
    evidence :=
      (persisted.evidence.insertAll batch.upsertEvidence).eraseAll batch.deleteEvidenceIds
    segments :=
      (persisted.segments.insertAll batch.upsertSegments).eraseAll batch.deleteSegmentIds
    gaps := (persisted.gaps.insertAll batch.upsertGaps).eraseAll batch.deleteGapIds
    frontier := batch.frontier
    traversal := batch.traversal }

/-- The records of a held table after a batch: keys are deleted, then records written. -/
def applySnapshotRecords {α : Type} {key : α → Text} (records : Table key)
    (upserts : List α) (deletes : List Text) : Table key :=
  if upserts = [] ∧ deletes = [] then records
  else (records.eraseAll deletes).insertAll upserts

/-- What the database answers to a reader: its tables, if they pass the check. -/
def readSnapshot (persisted : CatalogSnapshot) : CatalogResult CatalogSnapshot := do
  validateSnapshot persisted
  pure persisted

def mapStagedError : CatalogError → CatalogError
  | .invalidated _ detail =>
    .invalidInput ("catalog batch violates persisted invariant: " ++ detail)
  | other => other

/-! ### The incremental check -/

/-- How many pieces of evidence of a channel a batch removes and adds. -/
structure EvidenceCountDelta where
  channelId : Text
  removed : ℕ
  added : ℕ
  deriving DecidableEq

/-- The deltas of the channels that a batch touches. -/
abbrev EvidenceDeltas := Table EvidenceCountDelta.channelId

/-- The delta of a channel so far. -/
def EvidenceDeltas.entry (deltas : EvidenceDeltas) (channelId : Text) : EvidenceCountDelta :=
  (deltas.find? channelId).getD ⟨channelId, 0, 0⟩

def recordEvidenceRemoval (deltas : EvidenceDeltas) (channelId : Text) :
    CatalogResult EvidenceDeltas := do
  let delta := EvidenceDeltas.entry deltas channelId
  invalid (2 ^ 64 ≤ delta.removed + 1) "evidence removal count overflow"
  pure (deltas.insert { delta with removed := delta.removed + 1 })

def recordEvidenceAddition (deltas : EvidenceDeltas) (channelId : Text) :
    CatalogResult EvidenceDeltas := do
  let delta := EvidenceDeltas.entry deltas channelId
  invalid (2 ^ 64 ≤ delta.added + 1) "evidence addition count overflow"
  pure (deltas.insert { delta with added := delta.added + 1 })

/-- Record that the evidence with an id, if there is one, is removed. -/
def recordPreviousRemoval (previous : EvidenceTable) (deltas : EvidenceDeltas)
    (evidenceId : Text) : CatalogResult EvidenceDeltas :=
  match previous.find? evidenceId with
  | some reference => recordEvidenceRemoval deltas reference.channelId
  | none => pure deltas

def evidenceCountDeltas (previous : EvidenceTable) (batch : CatalogBatch) :
    CatalogResult EvidenceDeltas := do
  let deltas ← batch.upsertEvidence.foldlM
    (fun deltas reference => do
      let deltas ← recordPreviousRemoval previous deltas reference.evidenceId
      recordEvidenceAddition deltas reference.channelId)
    (Table.empty : EvidenceDeltas)
  batch.deleteEvidenceIds.foldlM (recordPreviousRemoval previous) deltas

def applyEvidenceDelta (previousCount : ℕ) (delta : EvidenceCountDelta) : CatalogResult ℕ := do
  invalid (previousCount < delta.removed) "evidence removal exceeds the previous Zone count"
  let remaining := previousCount - delta.removed
  invalid (2 ^ 64 ≤ remaining + delta.added) "Zone evidence count overflow"
  pure (remaining + delta.added)

def isSafeSegmentExtension (previous next : CoverageSegment) : Prop :=
  previous.floor = next.floor ∧
    (previous.frontier = next.frontier ∨ previous.frontier.slot < next.frontier.slot)

instance (previous next : CoverageSegment) : Decidable (isSafeSegmentExtension previous next) :=
  inferInstanceAs (Decidable (_ ∧ _))

/-- What is remembered of the catalog before a batch, to check the catalog after it. -/
structure IncrementalValidation where
  requiresFullSnapshotValidation : Bool
  changedSegmentIds : IdSet
  evidenceDeltas : EvidenceDeltas
  previousZoneCounts : Table (Prod.fst : Text × ℕ → Text)

/-- Whether a batch deletes a segment, or writes one that does not safely extend the old. -/
def requiresFullValidation (previous : CatalogSnapshot) (batch : CatalogBatch) : Bool :=
  !batch.deleteSegmentIds.isEmpty || batch.upsertSegments.any fun segment =>
    (previous.segments.find? segment.segmentId).any fun previousSegment =>
      !decide (isSafeSegmentExtension previousSegment segment)

/-- The segments whose frontier a batch moves. -/
def changedSegments (previous : CatalogSnapshot) (batch : CatalogBatch) : IdSet :=
  Table.empty.insertAll ((batch.upsertSegments.filter fun segment =>
    (previous.segments.find? segment.segmentId).any fun previousSegment =>
      decide (isSafeSegmentExtension previousSegment segment) &&
        decide (previousSegment.frontier ≠ segment.frontier)).map CoverageSegment.segmentId)

/-- The channels whose evidence or zone a batch touches, with the counts before it. -/
def touchedZoneCounts (previous : CatalogSnapshot) (batch : CatalogBatch)
    (evidenceDeltas : EvidenceDeltas) : Table (Prod.fst : Text × ℕ → Text) :=
  let channelIds := evidenceDeltas.records.map EvidenceCountDelta.channelId ++
    batch.upsertZones.map ZoneCatalogRecord.channelId ++ batch.deleteZoneIds
  Table.empty.insertAll (channelIds.map fun channelId =>
    (channelId, ((previous.zones.find? channelId).map ZoneCatalogRecord.evidenceCount).getD 0))

def prepareIncrementalValidation (previous : CatalogSnapshot) (batch : CatalogBatch) :
    CatalogResult IncrementalValidation := do
  let evidenceDeltas ← evidenceCountDeltas previous.evidence batch
  pure
    { requiresFullSnapshotValidation := requiresFullValidation previous batch
      changedSegmentIds := changedSegments previous batch
      evidenceDeltas := evidenceDeltas
      previousZoneCounts := touchedZoneCounts previous batch evidenceDeltas }

/-- The count of a channel after a batch, from the count before. -/
def expectedZoneCount (deltas : EvidenceDeltas) (previous : Text × ℕ) : CatalogResult ℕ :=
  match deltas.find? previous.1 with
  | some delta => applyEvidenceDelta previous.2 delta
  | none => pure previous.2

/-- The count of the evidence of a channel, and its zone, after a batch. -/
def validateZoneCount (snapshot : CatalogSnapshot) (deltas : EvidenceDeltas)
    (previous : Text × ℕ) : CatalogResult Unit := do
  let expectedCount ← expectedZoneCount deltas previous
  match snapshot.zones.find? previous.1 with
  | some zone => do
    persistedInvariant (zone.evidenceCount ≠ expectedCount) (countMismatch zone expectedCount)
    validateZoneRelationship snapshot.segments snapshot.evidence zone
  | none =>
    persistedInvariant (expectedCount ≠ 0) ("evidence exists for missing Zone " ++
      previous.1.toMessage)

/-- **The check of what a batch can have broken.** -/
def validateIncrementalSnapshot (snapshot : CatalogSnapshot) (batch : CatalogBatch)
    (validation : IncrementalValidation) : CatalogResult Unit :=
  if validation.requiresFullSnapshotValidation then validateSnapshot snapshot
  else do
    validateSnapshotHead snapshot.metadata snapshot.frontier snapshot.traversal
    forM batch.upsertEvidence (validateEvidenceRelationship snapshot.segments)
    forM batch.upsertGaps (validateGapRelationship snapshot.segments)
    forM (snapshot.gaps.records.filter
        (fun gap => validation.changedSegmentIds.contains gap.lowerSegmentId))
      (validateGapRelationship snapshot.segments)
    forM validation.previousZoneCounts.records
      (validateZoneCount snapshot validation.evidenceDeltas)

def applyBatchToSnapshot (snapshot : CatalogSnapshot) (metadata : CatalogMetadata)
    (batch : CatalogBatch) : CatalogResult CatalogSnapshot := do
  reject (snapshot.metadata.catalogRevision ≠ batch.expectedCatalogRevision)
    (.revisionConflict batch.expectedCatalogRevision snapshot.metadata.catalogRevision)
  let validation ← prepareIncrementalValidation snapshot batch
  let snapshot : CatalogSnapshot :=
    { metadata := metadata
      zones := applySnapshotRecords snapshot.zones batch.upsertZones batch.deleteZoneIds
      evidence :=
        applySnapshotRecords snapshot.evidence batch.upsertEvidence batch.deleteEvidenceIds
      segments :=
        applySnapshotRecords snapshot.segments batch.upsertSegments batch.deleteSegmentIds
      gaps := applySnapshotRecords snapshot.gaps batch.upsertGaps batch.deleteGapIds
      frontier := batch.frontier
      traversal := batch.traversal }
  validateIncrementalSnapshot snapshot batch validation
  pure snapshot

/-! ### Commits -/

/-- The metadata after a batch. -/
def nextMetadata (metadata : CatalogMetadata) (batch : CatalogBatch) :
    CatalogResult CatalogMetadata := do
  validatePersisted (validateMetadata metadata) "catalog metadata"
  reject (metadata.catalogRevision ≠ batch.expectedCatalogRevision)
    (.revisionConflict batch.expectedCatalogRevision metadata.catalogRevision)
  invalid (batch.updatedAtUnix < metadata.updatedAtUnix) "catalog update time moves backwards"
  invalid (2 ^ 64 ≤ metadata.catalogRevision + 1) "catalog revision exhausted"
  pure { metadata with
    catalogRevision := metadata.catalogRevision + 1
    updatedAtUnix := batch.updatedAtUnix }

/-- A write transaction on a database with the given content: the tables it would leave,
and what it returns. -/
def commitTransaction (persisted : CatalogSnapshot) (held : Option CatalogSnapshot)
    (batch : CatalogBatch) : CatalogResult (CatalogSnapshot × CatalogSnapshot) := do
  validateBatch batch
  let metadata ← nextMetadata persisted.metadata batch
  let staged := { applyBatchRecords persisted batch with metadata := metadata }
  let snapshot ← match held with
    | none => (readSnapshot staged).mapError mapStagedError
    | some held => applyBatchToSnapshot held metadata batch
  pure (staged, snapshot)

/-- The content of the database after a transaction, and its outcome: a transaction that
fails is dropped. -/
def runTransaction (persisted : CatalogSnapshot) (held : Option CatalogSnapshot)
    (batch : CatalogBatch) : CatalogSnapshot × CatalogResult CatalogSnapshot :=
  match commitTransaction persisted held batch with
  | .ok (staged, snapshot) => (staged, .ok snapshot)
  | .error error => (persisted, .error error)

/-- Commit a batch, reading the whole catalog back. -/
def commitBatch (persisted : CatalogSnapshot) (batch : CatalogBatch) :
    CatalogSnapshot × CatalogResult CatalogSnapshot :=
  runTransaction persisted none batch

/-- Commit a batch on top of a catalog that was read before. -/
def commitBatchFromSnapshot (persisted snapshot : CatalogSnapshot) (batch : CatalogBatch) :
    CatalogSnapshot × CatalogResult CatalogSnapshot :=
  runTransaction persisted (some snapshot) batch

end LogosInspector.Catalog
