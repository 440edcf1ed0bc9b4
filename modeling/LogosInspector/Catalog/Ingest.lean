import LogosInspector.Blockchain.ChannelOperations
import LogosInspector.Catalog.Model

/-!
# Ingesting blocks

A step of the engine works on a copy of the catalog, `WorkingCatalog`, whose tables it
edits and from which it takes the changes to commit (`WorkingCatalog.intoBatch`). This file
has that copy and the part of a step that reads blocks: each channel operation of a block
becomes a piece of evidence and updates the record of its channel (`ingestObservation`),
and at the end the records of all channels touched are computed anew from their evidence
(`recomputeZoneRecords`).

Two caches say, for each channel, which of its evidence is the latest – in the order
`evidenceOrder`, by slot, then transaction hash, then operation – and which of its
configurations is. They are computed from the evidence when the copy is made, and kept up
to date as evidence is added.
-/

namespace LogosInspector.Catalog

/-! ### Finalized blocks

The catalog learns of the network from a *source*, a node or a service that serves its finalized
blocks. A source is not trusted to be consistent. -/

/-- A finalized block. -/
structure CatalogL1Block where
  checkpoint : CatalogBlockCheckpoint
  payload : Json

/-- What a source says of its chain when it answers. -/
structure CatalogL1ChainSnapshot where
  tip : CatalogBlockReference
  lib : CatalogBlockReference
  deriving DecidableEq

/-- A block of a page, with the state of the chain it was served in. -/
structure CatalogL1BlockEvent where
  block : CatalogL1Block
  snapshot : CatalogL1ChainSnapshot

/-- A page of finalized blocks. -/
structure CatalogL1RangePage where
  events : List CatalogL1BlockEvent

/-- Why a source did not answer. -/
inductive CatalogL1SourceError
  /-- It was asked for something it cannot serve. -/
  | invalidRequest (detail : String)
  /-- It cannot be reached. -/
  | unavailable (detail : String)
  /-- Its answer makes no sense. -/
  | invalidResponse (detail : String)
  deriving DecidableEq

def CatalogL1SourceError.toText : CatalogL1SourceError → String
  | invalidRequest detail => "invalid catalog L1 request: " ++ detail
  | unavailable detail => "catalog L1 source unavailable: " ++ detail
  | invalidResponse detail => "invalid catalog L1 response: " ++ detail

/-- The reference of a block. -/
def blockReference (checkpoint : CatalogBlockCheckpoint) : CatalogBlockReference :=
  ⟨checkpoint.slot, checkpoint.blockId⟩

@[simp] theorem blockReference_slot (c : CatalogBlockCheckpoint) :
    (blockReference c).slot = c.slot := rfl

@[simp] theorem blockReference_blockId (c : CatalogBlockCheckpoint) :
    (blockReference c).blockId = c.blockId := rfl

/-- What the engine reports. -/
inductive CatalogEngineError
  /-- The catalog is not in the state that is asked for. -/
  | invalidState (detail : String)
  /-- A block cannot be decoded. -/
  | invalidBlock (detail : String)
  /-- The answers of the source contradict each other or the catalog. -/
  | sourceInconsistent (detail : String)
  /-- A counter overflows. -/
  | overflow (detail : String)
  deriving DecidableEq

/-- The outcome of an operation of the engine. -/
abbrev CatalogEngineResult := Except CatalogEngineError

/-- Under which revision of the source settings, when, and with what limit on the number
of blocks of a repair the engine runs. The limit is between `1` and `512`. -/
structure CatalogEngineContext where
  sourceRevision : ℕ
  updatedAtUnix : ℕ
  repairBlockLimit : ℕ
  repairBlockLimit_pos : 0 < repairBlockLimit
  repairBlockLimit_le : repairBlockLimit ≤ 512

/-! ### The order of evidence -/

def evidenceKindRank : ZoneEvidenceKind → ℕ
  | .channelCreated => 0
  | .channelConfiguration => 1
  | .channelOperation => 2
  | .rawInscription => 3
  | .sequencerBlock => 4

def evidenceKindTag : ZoneEvidenceKind → Text
  | .channelCreated => "created".toList
  | .channelConfiguration => "config".toList
  | .channelOperation => "operation".toList
  | .sequencerBlock => "sequencer".toList
  | .rawInscription => "raw".toList

/-- What evidence is ordered by: slot, transaction hash, operation index, kind, id. -/
def evidenceOrder (reference : ZoneEvidenceReference) : ℕ ×ₗ Text ×ₗ ℕ ×ₗ ℕ ×ₗ Text :=
  toLex (reference.l1Slot, toLex (reference.transactionHash.getD [],
    toLex (reference.operationIndex,
      toLex (evidenceKindRank reference.evidenceKind, reference.evidenceId))))

/-- The last of the greatest elements of a list, as `Iterator::max_by_key` finds it. -/
def maxByKey {α β : Type} [LinearOrder β] (f : α → β) : List α → Option α
  | [] => none
  | a :: rest => some (rest.foldl (fun best x => if f best ≤ f x then x else best) a)

/-! ### The working copy -/

/-- For each channel, the id of one of its pieces of evidence. -/
abbrev EvidenceIds := Table (Prod.fst : Text × Text → Text)

/-- The copy of the catalog that a step edits. -/
structure WorkingCatalog where
  frontier : Option CatalogFrontier
  traversal : Option CatalogTraversal
  zones : ZoneTable
  evidence : EvidenceTable
  latestPrimaryEvidence : EvidenceIds
  latestConfigurationEvidence : EvidenceIds
  segments : SegmentTable
  gaps : GapTable

/-- Whether a piece of evidence is later than the one a cache names for its channel. -/
def isLater (latest : EvidenceIds) (evidence : EvidenceTable)
    (candidate : ZoneEvidenceReference) : Bool :=
  match (latest.find? candidate.channelId).bind (fun entry => evidence.find? entry.2) with
  | some current => evidenceOrder current < evidenceOrder candidate
  | none => true

def updateLatestEvidenceId (latest : EvidenceIds) (evidence : EvidenceTable)
    (candidate : ZoneEvidenceReference) : EvidenceIds :=
  if isLater latest evidence candidate then
    latest.insert (candidate.channelId, candidate.evidenceId)
  else latest

/-- The two caches after one more piece of evidence. -/
def updateLatestEvidenceIds (evidence : EvidenceTable) (latest : EvidenceIds × EvidenceIds)
    (reference : ZoneEvidenceReference) : EvidenceIds × EvidenceIds :=
  (if reference.evidenceKind ≠ .channelCreated then
      updateLatestEvidenceId latest.1 evidence reference
    else latest.1,
   if reference.evidenceKind = .channelConfiguration then
      updateLatestEvidenceId latest.2 evidence reference
    else latest.2)

/-- The latest evidence and the latest configuration of every channel. -/
def latestEvidenceIds (evidence : EvidenceTable) : EvidenceIds × EvidenceIds :=
  evidence.records.foldl (updateLatestEvidenceIds evidence) (Table.empty, Table.empty)

namespace WorkingCatalog

def fromSnapshot (snapshot : CatalogSnapshot) : WorkingCatalog where
  frontier := snapshot.frontier
  traversal := snapshot.traversal
  zones := snapshot.zones
  evidence := snapshot.evidence
  latestPrimaryEvidence := (latestEvidenceIds snapshot.evidence).1
  latestConfigurationEvidence := (latestEvidenceIds snapshot.evidence).2
  segments := snapshot.segments
  gaps := snapshot.gaps

/-- The changes that lead from the snapshot to the working copy, if there are any. -/
def intoBatch (working : WorkingCatalog) (snapshot : CatalogSnapshot)
    (context : CatalogEngineContext) : Option CatalogBatch :=
  let batch : CatalogBatch :=
    { expectedCatalogRevision := snapshot.metadata.catalogRevision
      updatedAtUnix := context.updatedAtUnix
      upsertZones := Table.upserts snapshot.zones working.zones
      deleteZoneIds := Table.deletes snapshot.zones working.zones
      upsertEvidence := Table.upserts snapshot.evidence working.evidence
      deleteEvidenceIds := Table.deletes snapshot.evidence working.evidence
      upsertSegments := Table.upserts snapshot.segments working.segments
      deleteSegmentIds := Table.deletes snapshot.segments working.segments
      upsertGaps := Table.upserts snapshot.gaps working.gaps
      deleteGapIds := Table.deletes snapshot.gaps working.gaps
      frontier := working.frontier
      traversal := working.traversal }
  if batch.upsertZones ≠ [] ∨ batch.deleteZoneIds ≠ [] ∨ batch.upsertEvidence ≠ [] ∨
      batch.deleteEvidenceIds ≠ [] ∨ batch.upsertSegments ≠ [] ∨ batch.deleteSegmentIds ≠ [] ∨
      batch.upsertGaps ≠ [] ∨ batch.deleteGapIds ≠ [] ∨
      working.frontier ≠ snapshot.frontier ∨ working.traversal ≠ snapshot.traversal then
    some batch
  else none

end WorkingCatalog

/-- The block the catalog is read towards. -/
def currentTargetInWorking (working : WorkingCatalog) : CatalogEngineResult CatalogBlockReference :=
  required (working.traversal.bind CatalogTraversal.targetLib)
    (.invalidState "catch-up target LIB is missing")

/-! ### Observations -/

/-- What an operation of a block shows of its channel. -/
inductive ChannelObservationKind
  /-- A new configuration. -/
  | configuration (keys : List Text) (withdrawThreshold : Text)
  /-- An inscription. -/
  | inscription (evidenceKind : ZoneEvidenceKind) (parentIsRoot : Bool) (signer : Text)
      (conflicting : Bool)
  /-- Another operation. -/
  | operation
  deriving DecidableEq

/-- A channel operation of a block, as the catalog sees it. -/
structure ChannelObservation where
  channelId : Text
  transactionHash : Text
  operationIndex : ℕ
  kind : ChannelObservationKind
  deriving DecidableEq

def inscriptionEvidenceKind : InscriptionClassification → ZoneEvidenceKind
  | .sequencerBlock => .sequencerBlock
  | .raw | .conflicting => .rawInscription

def channelObservation (decoded : DecodedChannelOperation) : ChannelObservation where
  channelId := decoded.channelId
  transactionHash := decoded.transactionHash
  operationIndex := decoded.operationIndex
  kind := match decoded.kind with
    | .configuration keys withdrawThreshold => .configuration keys withdrawThreshold
    | .inscription parent signer _ classification =>
      .inscription (inscriptionEvidenceKind classification)
        (parent.all (· == '0')) signer (classification == .conflicting)
    | .deposit | .withdraw => .operation

def mapChannelDecodeError : ChannelOperationDecodeError → CatalogEngineError
  | .invalid detail => .invalidBlock detail
  | .overflow detail => .overflow detail

def extractChannelObservations (ext : Externals) (block : CatalogL1Block) :
    CatalogEngineResult (List ChannelObservation) :=
  match decodeBlockChannelOperations ext block.payload with
  | .ok operations => .ok (operations.map channelObservation)
  | .error error => .error (mapChannelDecodeError error)

/-! ### Adding evidence -/

def evidenceReference (observation : ChannelObservation) (block : CatalogL1Block)
    (segmentId : Text) (evidenceKind : ZoneEvidenceKind) (evidenceUse : CatalogEvidenceUse) :
    ZoneEvidenceReference where
  evidenceId := "evidence-".toList ++ observation.transactionHash ++ ['-'] ++
    Text.ofNat observation.operationIndex ++ ['-'] ++ evidenceKindTag evidenceKind
  channelId := observation.channelId
  coverageSegmentId := segmentId
  l1Slot := block.checkpoint.slot
  blockId := block.checkpoint.blockId
  transactionHash := some observation.transactionHash
  operationIndex := observation.operationIndex
  messageId := none
  evidenceKind := evidenceKind
  evidenceUse := evidenceUse

/-- Add a piece of evidence, and say whether it is new. -/
def insertEvidence (working : WorkingCatalog) (evidence : ZoneEvidenceReference) :
    CatalogEngineResult (WorkingCatalog × Bool) :=
  match working.evidence.find? evidence.evidenceId with
  | some existing =>
    if existing = evidence then .ok (working, false)
    else .error (.sourceInconsistent
      ("evidence id " ++ evidence.evidenceId.toMessage ++ " resolved to conflicting observations"))
  | none =>
    let primaryIsLatest := evidence.evidenceKind ≠ .channelCreated ∧
      isLater working.latestPrimaryEvidence working.evidence evidence = true
    let configurationIsLatest := evidence.evidenceKind = .channelConfiguration ∧
      isLater working.latestConfigurationEvidence working.evidence evidence = true
    .ok ({ working with
      evidence := working.evidence.insert evidence
      latestPrimaryEvidence :=
        if primaryIsLatest then
          working.latestPrimaryEvidence.insert (evidence.channelId, evidence.evidenceId)
        else working.latestPrimaryEvidence
      latestConfigurationEvidence :=
        if configurationIsLatest then
          working.latestConfigurationEvidence.insert (evidence.channelId, evidence.evidenceId)
        else working.latestConfigurationEvidence }, true)

/-! ### Updating the record of a channel -/

/-- The record a channel gets when it is first seen. -/
def newZoneRecord (observation : ChannelObservation) (block : CatalogL1Block)
    (segmentId : Text) (targetSlot : ℕ) (latestEvidenceId : Text)
    (context : CatalogEngineContext) : ZoneCatalogRecord where
  channelId := observation.channelId
  observedLabel := none
  l1Channel :=
    { tipSlot := some block.checkpoint.slot
      tipHash := none
      libSlot := some targetSlot
      balance := none
      keyCount := none
      withdrawThreshold := none
      operationCount := 0
      finalityState := .final }
  sequencerCommittee := none
  classification :=
    { channelOperations := 0
      recognizedL2Blocks := 0
      rawInscriptions := 0
      conflictingEvidence := false }
  firstSeenSlot := block.checkpoint.slot
  lastSeenSlot := block.checkpoint.slot
  latestEvidenceId := latestEvidenceId
  evidenceCount := 0
  snapshotProvenance :=
    { origin := .replayDerived
      coverageSegmentId := segmentId
      observedSlot := block.checkpoint.slot
      sourceRevision := context.sourceRevision }
  updatedAtUnix := context.updatedAtUnix

/-- The slots of a record, and whether its evidence conflicts, after one more operation. -/
def observeOperation (record : ZoneCatalogRecord) (slot targetSlot : ℕ) (conflicting : Bool)
    (context : CatalogEngineContext) : ZoneCatalogRecord :=
  { record with
    firstSeenSlot := min record.firstSeenSlot slot
    lastSeenSlot := max record.lastSeenSlot slot
    l1Channel :=
      { record.l1Channel with
        tipSlot := some (max (record.l1Channel.tipSlot.getD 0) slot)
        libSlot := some targetSlot
        finalityState := .final }
    classification :=
      { record.classification with
        conflictingEvidence := record.classification.conflictingEvidence || conflicting }
    updatedAtUnix := context.updatedAtUnix }

/-- The committee of a record after one more operation. A configuration counts if it is the
latest of the channel, an inscription if it is the latest operation of the channel: it
makes its signer, if accredited, the active member, and an inscription that starts a
channel without a committee makes its signer the committee. -/
def observeCommittee (record : ZoneCatalogRecord) (slot : ℕ) (kind : ChannelObservationKind)
    (observationIsLatest configurationIsLatest : Bool) : ZoneCatalogRecord :=
  match kind with
  | .configuration keys withdrawThreshold =>
    if configurationIsLatest then
      { record with
        l1Channel :=
          { record.l1Channel with
            keyCount := some keys.length
            withdrawThreshold := some withdrawThreshold }
        sequencerCommittee := some
          { members := keys
            activeMember := (record.sequencerCommittee.bind
              SequencerCommitteeSummary.activeMember).filter (keys.contains ·)
            observedAtSlot := some slot } }
    else record
  | .inscription _ parentIsRoot signer _ =>
    match record.sequencerCommittee with
    | some committee =>
      if observationIsLatest ∧ signer ∈ committee.members then
        { record with
          sequencerCommittee := some
            { committee with activeMember := some signer, observedAtSlot := some slot } }
      else record
    | none =>
      if parentIsRoot ∧ observationIsLatest then
        { record with
          l1Channel := { record.l1Channel with keyCount := some 1 }
          sequencerCommittee := some
            { members := [signer]
              activeMember := some signer
              observedAtSlot := some slot } }
      else record
  | .operation => record

/-- The kind and the use of the evidence that an observation is, whether it starts its
channel, and whether it conflicts. -/
def observedEvidence : ChannelObservationKind → ZoneEvidenceKind × CatalogEvidenceUse × Bool × Bool
  | .configuration .. => (.channelConfiguration, .pointSnapshot, false, false)
  | .inscription evidenceKind parentIsRoot _ conflicting =>
    (evidenceKind, .presence, parentIsRoot, conflicting)
  | .operation => (.channelOperation, .replayContribution, false, false)

/-- Whether an observation is a configuration. -/
def ChannelObservationKind.isConfiguration : ChannelObservationKind → Bool
  | .configuration .. => true
  | _ => false

/-- Add the evidence that a channel was created, if an operation starts it. -/
def insertCreation (block : CatalogL1Block) (segmentId : Text) (working : WorkingCatalog)
    (observation : ChannelObservation) (parentIsRoot : Bool) :
    CatalogEngineResult WorkingCatalog :=
  if parentIsRoot then
    Prod.fst <$> insertEvidence working
      (evidenceReference observation block segmentId .channelCreated .presence)
  else pure working

/-- **Read one operation**: add its evidence and, if that is new, update its channel. -/
def ingestObservation (block : CatalogL1Block) (segmentId : Text) (targetSlot : ℕ)
    (context : CatalogEngineContext) (working : WorkingCatalog)
    (observation : ChannelObservation) : CatalogEngineResult WorkingCatalog := do
  let (evidenceKind, evidenceUse, parentIsRoot, conflicting) := observedEvidence observation.kind
  let primary := evidenceReference observation block segmentId evidenceKind evidenceUse
  let (working, primaryIsNew) ← insertEvidence working primary
  let working ← insertCreation block segmentId working observation parentIsRoot
  if !primaryIsNew then pure working
  else
    let observationIsLatest :=
      working.latestPrimaryEvidence.find? observation.channelId ==
        some (observation.channelId, primary.evidenceId)
    let configurationIsLatest := observation.kind.isConfiguration &&
      working.latestConfigurationEvidence.find? observation.channelId ==
        some (observation.channelId, primary.evidenceId)
    let record := (working.zones.find? observation.channelId).getD
      (newZoneRecord observation block segmentId targetSlot primary.evidenceId context)
    let record := observeOperation record block.checkpoint.slot targetSlot conflicting context
    let record := observeCommittee record block.checkpoint.slot observation.kind
      observationIsLatest configurationIsLatest
    pure { working with zones := working.zones.insert record }

/-! ### Computing records anew -/

/-- The evidence of a channel, in the order of the ids. -/
def channelEvidence (evidence : EvidenceTable) (channelId : Text) : List ZoneEvidenceReference :=
  evidence.records.filter (fun reference => reference.channelId = channelId)

def countEvidence (references : List ZoneEvidenceReference) (kind : ZoneEvidenceKind) : ℕ :=
  (references.filter (fun reference => reference.evidenceKind = kind)).length

/-- The fields of a record that its evidence determines, computed from it; `latest` is the
latest of the evidence. -/
def deriveZoneRecord (record : ZoneCatalogRecord) (references : List ZoneEvidenceReference)
    (latest : ZoneEvidenceReference) (targetSlot : ℕ) (context : CatalogEngineContext) :
    ZoneCatalogRecord :=
  let primary := references.filter (fun reference => reference.evidenceKind ≠ .channelCreated)
  let latestConfiguration := maxByKey evidenceOrder
    (references.filter (fun reference => reference.evidenceKind = .channelConfiguration))
  let recognizedL2Blocks := countEvidence references .sequencerBlock
  let rawInscriptions := countEvidence references .rawInscription
  let firstSeen := ((primary.map ZoneEvidenceReference.l1Slot).min?).getD latest.l1Slot
  let lastSeen := ((primary.map ZoneEvidenceReference.l1Slot).max?).getD latest.l1Slot
  { record with
    firstSeenSlot := firstSeen
    lastSeenSlot := lastSeen
    latestEvidenceId := latest.evidenceId
    evidenceCount := references.length
    classification :=
      { channelOperations := primary.length
        recognizedL2Blocks := recognizedL2Blocks
        rawInscriptions := rawInscriptions
        conflictingEvidence := record.classification.conflictingEvidence ||
          (decide (0 < recognizedL2Blocks) && decide (0 < rawInscriptions)) }
    l1Channel :=
      { record.l1Channel with
        operationCount := primary.length
        tipSlot := some lastSeen
        libSlot := some targetSlot
        finalityState := .final }
    snapshotProvenance :=
      { origin :=
          if latestConfiguration.any (·.coverageSegmentId = latest.coverageSegmentId) then
            .fullConfiguration
          else .replayDerived
        coverageSegmentId := latest.coverageSegmentId
        observedSlot := lastSeen
        sourceRevision := context.sourceRevision }
    updatedAtUnix := context.updatedAtUnix }

def recomputeZoneRecord (targetSlot : ℕ) (context : CatalogEngineContext)
    (working : WorkingCatalog) (channelId : Text) : CatalogEngineResult WorkingCatalog := do
  let references := channelEvidence working.evidence channelId
  let latest ← required (maxByKey evidenceOrder references)
    (.invalidState ("Zone " ++ channelId.toMessage ++ " has no evidence after ingestion"))
  let record ← required (working.zones.find? channelId)
    (.invalidState ("Zone " ++ channelId.toMessage ++ " is missing"))
  pure { working with
    zones := working.zones.insert (deriveZoneRecord record references latest targetSlot context) }

def recomputeZoneRecords (working : WorkingCatalog) (channels : IdSet) (targetSlot : ℕ)
    (context : CatalogEngineContext) : CatalogEngineResult WorkingCatalog :=
  channels.records.foldlM (recomputeZoneRecord targetSlot context) working

/-! ### Reading blocks -/

/-- Read one block; `state.2` are the channels touched so far. -/
def ingestBlock (ext : Externals) (segmentId : Text) (targetSlot : ℕ)
    (context : CatalogEngineContext) (state : WorkingCatalog × IdSet) (block : CatalogL1Block) :
    CatalogEngineResult (WorkingCatalog × IdSet) := do
  let observations ← extractChannelObservations ext block
  observations.foldlM
    (fun state observation => do
      let working ← ingestObservation block segmentId targetSlot context state.1 observation
      pure (working, state.2.insert observation.channelId))
    state

/-- **Read blocks**, in order, as blocks of a segment. -/
def ingestBlocks (ext : Externals) (working : WorkingCatalog) (blocks : List CatalogL1Block)
    (segmentId : Text) (context : CatalogEngineContext) :
    CatalogEngineResult WorkingCatalog := do
  let target ← currentTargetInWorking working
  let (working, touchedChannels) ←
    blocks.foldlM (ingestBlock ext segmentId target.slot context) (working, Table.empty)
  recomputeZoneRecords working touchedChannels target.slot context

end LogosInspector.Catalog
