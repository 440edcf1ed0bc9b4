import LogosInspector.Result
import LogosInspector.Table
import LogosInspector.Text

/-!
# The records of the Zone Catalog

The catalog of an inspected network is what has been learnt of it by reading its
finalized blocks: *zones*, one per channel seen; the *evidence* they rest on, one
record per channel operation; the *coverage segments*, the stretches of consecutive
blocks that have been read; the *coverage gaps* between them; a *frontier* and a
*traversal*, which say how far reading has come and towards which block it goes.

This file has the records and, in its second half, the checks each must pass on its
own (`validateSegment`, `validateGap`, …). What the records must satisfy together is
in `Catalog.Store`.

Slots, revisions and times are 64-bit words in the source and natural numbers here:
nothing computes with them except to compare them, and the counters that are added to
are checked for overflow where the source checks them.
-/

namespace LogosInspector.Catalog

/-! ### Errors -/

/-- Why a persisted catalog can no longer be trusted. -/
inductive CatalogInvalidationReason
  /-- The database file cannot be read. -/
  | databaseUnreadable
  /-- The schema record is missing. -/
  | schemaMissing
  /-- The schema has another version. -/
  | schemaVersion
  /-- A table has another type than expected. -/
  | tableSchema
  /-- A record has another version. -/
  | recordVersion
  /-- A record cannot be decoded. -/
  | recordDecode
  /-- The records do not satisfy the catalog's invariants. -/
  | recordInvariant
  deriving DecidableEq

/-- What the catalog's store reports. -/
inductive CatalogError
  /-- The persisted records are not to be trusted. -/
  | invalidated (reason : CatalogInvalidationReason) (detail : String)
  /-- The batch was computed from another revision. -/
  | revisionConflict (expected current : ℕ)
  /-- The records handed in are not valid. -/
  | invalidInput (detail : String)
  /-- The storage failed. -/
  | storage (detail : String)
  deriving DecidableEq

def CatalogInvalidationReason.toText : CatalogInvalidationReason → String
  | databaseUnreadable => "DatabaseUnreadable"
  | schemaMissing => "SchemaMissing"
  | schemaVersion => "SchemaVersion"
  | tableSchema => "TableSchema"
  | recordVersion => "RecordVersion"
  | recordDecode => "RecordDecode"
  | recordInvariant => "RecordInvariant"

def CatalogError.toText : CatalogError → String
  | invalidated reason detail =>
    "Zone Catalog invalidated (" ++ reason.toText ++ "): " ++ detail
  | revisionConflict expected current =>
    "Zone Catalog revision conflict: expected " ++ toString expected ++ ", current " ++
      toString current
  | invalidInput detail => "invalid Zone Catalog input: " ++ detail
  | storage detail => "Zone Catalog storage error: " ++ detail

/-- The outcome of an operation of the store. -/
abbrev CatalogResult := Except CatalogError

/-! ### Network identity -/

/-- What a network is known by. -/
inductive NetworkScope
  /-- The id of its first block. -/
  | genesisId (genesisId : Text)
  /-- Its genesis time and one of its finalized blocks. -/
  | finalizedAnchor (genesisTime : Text) (blockSlot : ℕ) (blockId parentId : Text)
  deriving DecidableEq

/-- Whether a network is known by the id of its first block. -/
def NetworkScope.isGenesisId : NetworkScope → Bool
  | .genesisId _ => true
  | .finalizedAnchor .. => false

/-- How well the identity of a catalog's network is established. -/
inductive CatalogIdentityAssurance
  /-- Only an anchor is known. -/
  | provisional
  /-- The source claims it. -/
  | sourceAttested
  /-- The chain has been followed down to it. -/
  | ancestryVerified
  deriving DecidableEq

/-- A scope the catalog was known under before. -/
structure NetworkIdentityAlias where
  networkScope : NetworkScope
  acceptedAtUnix : ℕ
  deriving DecidableEq

/-- A block, by slot and id. -/
structure CatalogBlockReference where
  slot : ℕ
  blockId : Text
  deriving DecidableEq

/-- A block, with the id of its parent. -/
structure CatalogBlockCheckpoint where
  slot : ℕ
  blockId : Text
  parentId : Text
  deriving DecidableEq

/-- The stages of a change of identity. -/
inductive CatalogIdentityTransitionStage
  /-- The change is written down. -/
  | prepared
  /-- The settings refer to the new identity. -/
  | settingsRebound
  /-- The catalog has the new identity. -/
  | committed
  deriving DecidableEq

/-- A change of identity from an anchor to a genesis id. -/
structure CatalogIdentityTransition where
  oldScope : NetworkScope
  newScope : NetworkScope
  anchor : CatalogBlockCheckpoint
  checkpoint : CatalogBlockCheckpoint
  sourceRevision : ℕ
  stage : CatalogIdentityTransitionStage
  preparedAtUnix : ℕ
  deriving DecidableEq

/-- The catalog's own record. -/
structure CatalogMetadata where
  catalogFileId : Text
  networkScope : NetworkScope
  identityAliases : List NetworkIdentityAlias
  identityAssurance : CatalogIdentityAssurance
  identityTransition : Option CatalogIdentityTransition
  catalogRevision : ℕ
  createdAtUnix : ℕ
  updatedAtUnix : ℕ
  deriving DecidableEq

/-! ### Coverage -/

/-- Whether the blocks below the lowest one read are known to be missing. -/
inductive CoveragePrefixStatus
  /-- The chain has been read from slot `0`. -/
  | complete
  /-- It starts later, and what precedes it was not found. -/
  | unavailable
  /-- Nothing has been read. -/
  | unknown
  deriving DecidableEq

/-- How much of the chain up to the target has been read. -/
inductive CatalogCoverageStatus
  /-- All of it. -/
  | complete
  /-- Some of it. -/
  | partialCoverage
  /-- It is being read again. -/
  | rebuilding
  /-- Not known. -/
  | unknown
  deriving DecidableEq

/-- How far reading has come. -/
structure CatalogFrontier where
  scannedThroughSlot : Option ℕ
  checkpoint : Option CatalogBlockCheckpoint
  observedLib : Option CatalogBlockReference
  coverageFloor : Option ℕ
  prefixStatus : CoveragePrefixStatus
  coverageStatus : CatalogCoverageStatus
  deriving DecidableEq

/-- Where reading goes, and from where it goes on. -/
structure CatalogTraversal where
  targetLib : Option CatalogBlockReference
  ingestionCursor : Option CatalogBlockReference
  deriving DecidableEq

/-- A stretch of parent-linked blocks that have been read. -/
structure CoverageSegment where
  segmentId : Text
  floor : CatalogBlockCheckpoint
  frontier : CatalogBlockReference
  reachesTargetLib : Bool
  deriving DecidableEq

/-- Why there is a gap. -/
inductive CoverageGapReason
  /-- A parent is not known to the source. -/
  | missingParent
  /-- The source knows a block but not its body. -/
  | missingBlockBody
  /-- The source answered with a block that is not the parent. -/
  | parentLinkMismatch
  /-- The source could not be asked. -/
  | sourceUnavailable
  deriving DecidableEq

/-- What is being done about a gap. -/
inductive CoverageGapStatus
  /-- Nothing yet. -/
  | pending
  /-- It is being repaired. -/
  | repairing
  /-- A repair failed. -/
  | backoff
  deriving DecidableEq

/-- Missing blocks between two segments. -/
structure CoverageGap where
  gapId : Text
  lowerSegmentId : Text
  lowerCheckpoint : CatalogBlockReference
  upperSegmentId : Text
  upperBlock : CatalogBlockReference
  requiredParentId : Text
  reason : CoverageGapReason
  status : CoverageGapStatus
  attempts : ℕ
  firstSeenAtUnix : ℕ
  lastAttemptAtUnix : Option ℕ
  deriving DecidableEq

/-! ### Zones and their evidence -/

/-- Whether a channel's tip is final. -/
inductive L1FinalityState
  /-- The tip is final. -/
  | final
  /-- The tip is about to become final. -/
  | finalizing
  /-- Not known. -/
  | unknown
  deriving DecidableEq

/-- What the chain says of a channel. -/
structure L1ChannelSummary where
  tipSlot : Option ℕ
  tipHash : Option Text
  libSlot : Option ℕ
  balance : Option Text
  keyCount : Option ℕ
  withdrawThreshold : Option Text
  operationCount : ℕ
  finalityState : L1FinalityState
  deriving DecidableEq

/-- The keys accredited on a channel, and the one last seen signing. -/
structure SequencerCommitteeSummary where
  members : List Text
  activeMember : Option Text
  observedAtSlot : Option ℕ
  deriving DecidableEq

/-- What a channel's operations have been classified as. -/
structure ZoneClassificationCounters where
  channelOperations : ℕ
  recognizedL2Blocks : ℕ
  rawInscriptions : ℕ
  conflictingEvidence : Bool
  deriving DecidableEq

/-- How a zone's summary was obtained. -/
inductive CatalogSnapshotOrigin
  /-- By replaying operations. -/
  | replayDerived
  /-- From one operation. -/
  | pointSnapshot
  /-- From a configuration and every operation after it. -/
  | fullConfiguration
  deriving DecidableEq

/-- Where a zone's summary comes from. -/
structure CatalogSnapshotProvenance where
  origin : CatalogSnapshotOrigin
  coverageSegmentId : Text
  observedSlot : ℕ
  sourceRevision : ℕ
  deriving DecidableEq

/-- A zone: one channel of the network. -/
structure ZoneCatalogRecord where
  channelId : Text
  observedLabel : Option Text
  l1Channel : L1ChannelSummary
  sequencerCommittee : Option SequencerCommitteeSummary
  classification : ZoneClassificationCounters
  firstSeenSlot : ℕ
  lastSeenSlot : ℕ
  latestEvidenceId : Text
  evidenceCount : ℕ
  snapshotProvenance : CatalogSnapshotProvenance
  updatedAtUnix : ℕ
  deriving DecidableEq

/-- What an operation is evidence of. -/
inductive ZoneEvidenceKind
  /-- The channel was created by this operation. -/
  | channelCreated
  /-- The channel was configured. -/
  | channelConfiguration
  /-- Another operation on the channel. -/
  | channelOperation
  /-- An inscription that is a block of a sequencer. -/
  | sequencerBlock
  /-- An inscription that is not. -/
  | rawInscription
  deriving DecidableEq

/-- What a piece of evidence is used for. -/
inductive CatalogEvidenceUse
  /-- That the channel exists. -/
  | presence
  /-- A summary of its own. -/
  | pointSnapshot
  /-- A part of a replayed summary. -/
  | replayContribution
  deriving DecidableEq

/-- One piece of evidence: one operation of one block. -/
structure ZoneEvidenceReference where
  evidenceId : Text
  channelId : Text
  coverageSegmentId : Text
  l1Slot : ℕ
  blockId : Text
  transactionHash : Option Text
  operationIndex : ℕ
  messageId : Option Text
  evidenceKind : ZoneEvidenceKind
  evidenceUse : CatalogEvidenceUse
  deriving DecidableEq

/-! ### The catalog -/

/-- A set of ids. -/
abbrev IdSet := Table (id : Text → Text)

/-- The zones, by channel id. -/
abbrev ZoneTable := Table ZoneCatalogRecord.channelId

/-- The evidence, by evidence id. -/
abbrev EvidenceTable := Table ZoneEvidenceReference.evidenceId

/-- The coverage segments, by segment id. -/
abbrev SegmentTable := Table CoverageSegment.segmentId

/-- The coverage gaps, by gap id. -/
abbrev GapTable := Table CoverageGap.gapId

/-- **A catalog**, as it is read from its store: the vectors of the source are sorted
by their ids, which the tables carry. -/
structure CatalogSnapshot where
  metadata : CatalogMetadata
  frontier : Option CatalogFrontier
  traversal : Option CatalogTraversal
  zones : ZoneTable
  evidence : EvidenceTable
  segments : SegmentTable
  gaps : GapTable
  deriving DecidableEq

/-- The changes of one commit: records to write and ids to delete, table by table,
and the frontier and traversal to replace the old ones. -/
structure CatalogBatch where
  expectedCatalogRevision : ℕ
  updatedAtUnix : ℕ
  upsertZones : List ZoneCatalogRecord
  deleteZoneIds : List Text
  upsertEvidence : List ZoneEvidenceReference
  deleteEvidenceIds : List Text
  upsertSegments : List CoverageSegment
  deleteSegmentIds : List Text
  upsertGaps : List CoverageGap
  deleteGapIds : List Text
  frontier : Option CatalogFrontier
  traversal : Option CatalogTraversal
  deriving DecidableEq

/-! ### The checks on one record -/

/-- Reject a record with a message. -/
def invalid (bad : Prop) [Decidable bad] (detail : String) : CatalogResult Unit :=
  reject bad (.invalidInput detail)

@[simp] theorem invalid_eq_ok {bad : Prop} [Decidable bad] {detail : String} {u : Unit} :
    invalid bad detail = .ok u ↔ ¬ bad := reject_eq_ok

/-- Canonical 32-byte hexadecimal text: 64 lower-case digits. -/
def IsHexId (value : Text) : Prop :=
  value.byteLength = 64 ∧ value.all Text.isLowerHexdigit = true

instance (value : Text) : Decidable (IsHexId value) :=
  inferInstanceAs (Decidable (_ ∧ _))

/-- A local id: not empty, at most 256 bytes, no control character. -/
def IsLocalId (value : Text) : Prop :=
  ¬ (value = [] ∨ 256 < value.byteLength ∨ value.any Text.isControl = true)

instance (value : Text) : Decidable (IsLocalId value) :=
  inferInstanceAs (Decidable (¬ _))

def validateHexId (value : Text) (label : String) : CatalogResult Unit :=
  invalid (¬ IsHexId value) (label ++ " must be canonical 32-byte hexadecimal text")

def validateLocalId (value : Text) (label : String) : CatalogResult Unit :=
  invalid (¬ IsLocalId value) (label ++ " is invalid")

def validateCheckpoint (checkpoint : CatalogBlockCheckpoint) : CatalogResult Unit := do
  validateHexId checkpoint.blockId "checkpoint block id"
  validateHexId checkpoint.parentId "checkpoint parent id"

def validateBlockReference (reference : CatalogBlockReference) : CatalogResult Unit :=
  validateHexId reference.blockId "block id"

def validateNetworkScope : NetworkScope → CatalogResult Unit
  | .genesisId genesisId => validateHexId genesisId "genesis id"
  | .finalizedAnchor genesisTime _ blockId parentId => do
    invalid (genesisTime = [] ∨ genesisTime.any Text.isControl = true)
      "finalized-anchor genesis time is invalid"
    validateHexId blockId "finalized-anchor block id"
    validateHexId parentId "finalized-anchor parent id"

/-- The aliases in turn; `seen` are the scopes of those before. -/
def validateIdentityAliases (canonical : NetworkScope) (seen : List NetworkScope) :
    List NetworkIdentityAlias → CatalogResult Unit
  | [] => pure ()
  | known :: rest => do
    validateNetworkScope known.networkScope
    invalid (known.networkScope = canonical) "catalog identity alias duplicates canonical scope"
    invalid (known.networkScope ∈ seen) "catalog identity aliases contain duplicates"
    validateIdentityAliases canonical (seen ++ [known.networkScope]) rest

def validateIdentityTransition (metadata : CatalogMetadata)
    (transition : CatalogIdentityTransition) : CatalogResult Unit := do
  validateNetworkScope transition.oldScope
  validateNetworkScope transition.newScope
  validateCheckpoint transition.anchor
  validateCheckpoint transition.checkpoint
  invalid (transition.oldScope.isGenesisId = true ∨ transition.newScope.isGenesisId = false)
    "catalog identity transition must strengthen an anchor to genesis"
  match transition.stage with
  | .prepared | .settingsRebound =>
    invalid (metadata.networkScope ≠ transition.oldScope)
      "pending identity transition changed canonical scope"
  | .committed =>
    invalid (metadata.networkScope ≠ transition.newScope ∨
        ¬ transition.oldScope ∈ metadata.identityAliases.map NetworkIdentityAlias.networkScope)
      "committed identity transition is missing canonical scope or alias"

def validateMetadata (metadata : CatalogMetadata) : CatalogResult Unit := do
  validateLocalId metadata.catalogFileId "catalog file id"
  validateNetworkScope metadata.networkScope
  validateIdentityAliases metadata.networkScope [] metadata.identityAliases
  metadata.identityTransition.forM (validateIdentityTransition metadata)
  invalid (metadata.identityAssurance = .ancestryVerified ∧
      metadata.networkScope.isGenesisId = false)
    "ancestry-verified identity requires genesis scope"

/-- The checkpoint of a frontier is the block it is scanned through. -/
def validateFrontierCheckpoint (frontier : CatalogFrontier) : CatalogResult Unit :=
  match frontier.checkpoint with
  | some checkpoint => do
    validateCheckpoint checkpoint
    invalid (frontier.scannedThroughSlot ≠ some checkpoint.slot)
      "catalog checkpoint must match scanned-through slot"
  | none =>
    invalid (frontier.scannedThroughSlot ≠ none)
      "scanned catalog frontier requires an actual block checkpoint"

def validateFrontier (frontier : CatalogFrontier) : CatalogResult Unit := do
  validateFrontierCheckpoint frontier
  frontier.observedLib.forM fun observedLib => do
    validateBlockReference observedLib
    invalid (∃ slot ∈ frontier.scannedThroughSlot, observedLib.slot < slot)
      "catalog frontier is beyond observed LIB"
  invalid (∃ floor ∈ frontier.coverageFloor,
      ∀ scanned ∈ frontier.scannedThroughSlot, scanned < floor)
    "catalog coverage floor is beyond its frontier"

def validateTraversal (traversal : CatalogTraversal) : CatalogResult Unit := do
  traversal.targetLib.forM validateBlockReference
  traversal.ingestionCursor.forM fun cursor => do
    validateBlockReference cursor
    invalid (∃ target ∈ traversal.targetLib, target.slot < cursor.slot)
      "catalog ingestion cursor is beyond target LIB"

def validateSegment (segment : CoverageSegment) : CatalogResult Unit := do
  validateLocalId segment.segmentId "coverage segment id"
  validateCheckpoint segment.floor
  validateBlockReference segment.frontier
  invalid (segment.frontier.slot < segment.floor.slot)
    "coverage segment frontier precedes its floor"
  invalid (segment.frontier.slot = segment.floor.slot ∧
      segment.frontier.blockId ≠ segment.floor.blockId)
    "single-block coverage segment has conflicting block ids"

def validateGap (gap : CoverageGap) : CatalogResult Unit := do
  validateLocalId gap.gapId "coverage gap id"
  validateLocalId gap.lowerSegmentId "lower coverage segment id"
  validateLocalId gap.upperSegmentId "upper coverage segment id"
  validateBlockReference gap.lowerCheckpoint
  validateBlockReference gap.upperBlock
  validateHexId gap.requiredParentId "required parent id"
  invalid (gap.lowerSegmentId = gap.upperSegmentId) "coverage gap must join distinct segments"
  invalid (gap.upperBlock.slot ≤ gap.lowerCheckpoint.slot)
    "coverage gap upper block must follow its lower checkpoint"

/-- The members in turn; `seen` are those before. -/
def validateCommitteeMembers (seen : List Text) : List Text → CatalogResult Unit
  | [] => pure ()
  | member :: rest => do
    validateLocalId member "Sequencer committee member"
    invalid (member ∈ seen) "Sequencer committee contains duplicate members"
    validateCommitteeMembers (seen ++ [member]) rest

def validateCommittee (committee : SequencerCommitteeSummary) : CatalogResult Unit := do
  validateCommitteeMembers [] committee.members
  invalid (∃ active ∈ committee.activeMember, ¬ active ∈ committee.members)
    "active Sequencer committee member is not accredited"

/-- The label a zone may be shown under. -/
def IsZoneLabel (label : Text) : Prop :=
  ¬ (label = [] ∨ 256 < label.byteLength ∨ label.any Text.isControl = true)

instance (label : Text) : Decidable (IsZoneLabel label) :=
  inferInstanceAs (Decidable (¬ _))

def validateZone (record : ZoneCatalogRecord) : CatalogResult Unit := do
  validateHexId record.channelId "Channel id"
  invalid (∃ label ∈ record.observedLabel, ¬ IsZoneLabel label) "Zone label is invalid"
  record.l1Channel.tipHash.forM (validateHexId · "Channel tip hash")
  record.sequencerCommittee.forM validateCommittee
  validateLocalId record.latestEvidenceId "latest evidence id"
  validateLocalId record.snapshotProvenance.coverageSegmentId "snapshot coverage segment id"
  invalid (record.lastSeenSlot < record.firstSeenSlot)
    "Zone last-seen slot precedes first-seen slot"
  invalid (record.evidenceCount = 0) "Zone record must reference evidence"

def validateEvidence (reference : ZoneEvidenceReference) : CatalogResult Unit := do
  validateLocalId reference.evidenceId "evidence id"
  validateHexId reference.channelId "evidence Channel id"
  validateLocalId reference.coverageSegmentId "evidence coverage segment id"
  validateHexId reference.blockId "evidence block id"
  reference.transactionHash.forM (validateHexId · "evidence transaction hash")
  invalid (∃ value ∈ reference.messageId, value = [] ∨ value.any Text.isControl = true)
    "evidence message id is invalid"

end LogosInspector.Catalog
