import LogosInspector.Catalog.Ingest

/-!
# The catalog engine

The engine turns what a source serves into changes of the catalog. It keeps no state: each
of its functions takes the catalog as it is (`CatalogSnapshot`) and what was served, and
returns the changes to commit (`CatalogBatch`), or says what it needs to know first.

* `prepareCatalogCatchUp` sets the block to read up to, the *target*.
* `reduceCatalogPage` reads a page of blocks that goes on where reading stopped. If the
  page does not go on there it asks for the blocks in between, an *ancestry repair*;
  `reduceCatalogRepair` goes on with the answer. If the blocks in between cannot be had,
  `confirmCatalogRepairGap` opens a new segment above a *gap*.
* `reduceCatalogGapRepair` and `reduceCatalogPrefixRepair` read blocks that fill a gap, or
  that precede the first segment, partly or entirely.

`repairCatalogAncestry` is the search for the blocks in between: it follows parent ids
downwards, one block at a time.
-/

namespace LogosInspector.Catalog

/-! ### Requests and outcomes -/

/-- A search for the blocks above `lowerCheckpoint`, or above nothing, and below
`upperCheckpoint`; at most `maxBlocks` of them. -/
structure CatalogAncestryRepairRequest where
  lowerCheckpoint : Option CatalogBlockReference
  upperCheckpoint : CatalogBlockCheckpoint
  expectedGenesisId : Option Text
  maxBlocks : ℕ
  maxBlocks_pos : 0 < maxBlocks
  deriving DecidableEq

/-- What a search has found, by increasing slot. -/
inductive CatalogAncestryRepairOutcome
  /-- All of the blocks. -/
  | connected (recoveredBlocks : List CatalogL1Block)
  /-- Some of them: the block `missingBlockId`, below all of those, was not found. -/
  | unresolved (recoveredBlocks : List CatalogL1Block) (missingBlockId : Text)
      (reason : CoverageGapReason)

/-- The blocks a search has found. -/
def CatalogAncestryRepairOutcome.recoveredBlocks :
    CatalogAncestryRepairOutcome → List CatalogL1Block
  | .connected recoveredBlocks => recoveredBlocks
  | .unresolved recoveredBlocks _ _ => recoveredBlocks

/-- What comes of a page. -/
inductive CatalogPageReduction
  /-- The page was empty. -/
  | noProgress
  /-- Changes to commit, and the blocks of the page that are not part of them. -/
  | commit (batch : CatalogBatch) (remainingEvents : List CatalogL1BlockEvent)
  /-- The blocks below the page have to be searched for. -/
  | repairRequired (request : CatalogAncestryRepairRequest)
      (pendingEvents : List CatalogL1BlockEvent)
  /-- They were not found; the source has to confirm its chain before a gap is opened. -/
  | gapConfirmationRequired (request : CatalogAncestryRepairRequest)
      (pendingEvents : List CatalogL1BlockEvent) (outcome : CatalogAncestryRepairOutcome)

/-- What a source has confirmed before a repair is committed. -/
structure CatalogRepairConfirmation where
  targetLib : CatalogBlockReference
  lowerCheckpoint : Option CatalogBlockReference
  upperFrontierCheckpoint : Option CatalogBlockCheckpoint
  deriving DecidableEq

/-! ### Checks -/

def validateId (value : Text) (label : String) : CatalogEngineResult Unit :=
  reject (¬ IsHexId value) (.invalidState ("invalid Zone Catalog input: " ++ label ++
    " must be canonical 32-byte hexadecimal text"))

def validateReferenceOf (reference : CatalogBlockReference) (label : String) :
    CatalogEngineResult Unit :=
  validateId reference.blockId (label ++ " block id")

def validateCheckpointOf (checkpoint : CatalogBlockCheckpoint) (label : String) :
    CatalogEngineResult Unit := do
  validateId checkpoint.blockId (label ++ " id")
  validateId checkpoint.parentId (label ++ " parent id")

def validateContext (snapshot : CatalogSnapshot) (context : CatalogEngineContext) :
    CatalogEngineResult Unit :=
  reject (context.updatedAtUnix < snapshot.metadata.updatedAtUnix)
    (.invalidState "engine update time precedes catalog update time")

def currentTarget (snapshot : CatalogSnapshot) : CatalogEngineResult CatalogBlockReference :=
  required (snapshot.traversal.bind CatalogTraversal.targetLib)
    (.invalidState "catch-up target LIB is missing")

/-- The block after which reading goes on. -/
def ingestionCursor (traversal : Option CatalogTraversal) : Option CatalogBlockReference :=
  traversal.bind CatalogTraversal.ingestionCursor

def validatePageSnapshots (events : List CatalogL1BlockEvent) : CatalogEngineResult Unit :=
  match events with
  | [] => pure ()
  | first :: _ => forM events fun event =>
    reject (event.snapshot ≠ first.snapshot)
      (.sourceInconsistent "page chain snapshot changed between events")

def validateEventAgainstTarget (target : CatalogBlockReference) (event : CatalogL1BlockEvent) :
    CatalogEngineResult Unit := do
  reject (target.slot < event.block.checkpoint.slot)
    (.sourceInconsistent ("page block slot " ++ toString event.block.checkpoint.slot ++
      " is beyond target LIB slot " ++ toString target.slot))
  reject (event.block.checkpoint.slot = target.slot ∧
      event.block.checkpoint.blockId ≠ target.blockId)
    (.sourceInconsistent "page block conflicts with target LIB id")
  reject (event.snapshot.lib.slot < target.slot ∨
      (event.snapshot.lib.slot = target.slot ∧ event.snapshot.lib.blockId ≠ target.blockId))
    (.sourceInconsistent "page source snapshot does not cover fixed target LIB")

/-- The slots increase, from `previous` on. -/
def validateAscendingFrom (previous : Option ℕ) :
    List CatalogL1BlockEvent → CatalogEngineResult Unit
  | [] => pure ()
  | event :: rest => do
    reject (∃ slot ∈ previous, event.block.checkpoint.slot ≤ slot)
      (.sourceInconsistent "page block slots are not strictly ascending")
    validateAscendingFrom (some event.block.checkpoint.slot) rest

def validateStrictlyAscendingSlots (events : List CatalogL1BlockEvent) : CatalogEngineResult Unit :=
  validateAscendingFrom none events

def validateGenesisBlock (snapshot : CatalogSnapshot) (checkpoint : CatalogBlockCheckpoint) :
    CatalogEngineResult Unit := do
  reject (checkpoint.slot ≠ 0) (.invalidState "genesis block must be at slot zero")
  match snapshot.metadata.networkScope with
  | .genesisId genesisId =>
    reject (checkpoint.blockId ≠ genesisId)
      (.sourceInconsistent "slot-zero block conflicts with catalog genesis id")
  | .finalizedAnchor .. => pure ()

/-- The segment that ends at the cursor. -/
def activeSegmentIdIn (segments : SegmentTable) (cursor : CatalogBlockReference) :
    CatalogEngineResult Text :=
  match segments.records.filter (fun segment => segment.frontier = cursor) with
  | [segment] => pure segment.segmentId
  | [] => throw (.invalidState "ingestion cursor has no active coverage segment")
  | _ => throw (.invalidState "ingestion cursor matches multiple coverage segments")

def validateRepairRequest (request : CatalogAncestryRepairRequest) : CatalogEngineResult Unit := do
  validateCheckpointOf request.upperCheckpoint "repair upper checkpoint"
  request.lowerCheckpoint.forM fun lower => do
    validateReferenceOf lower "repair lower checkpoint"
    reject (request.upperCheckpoint.slot ≤ lower.slot)
      (.invalidState "repair lower checkpoint must precede upper block")
  request.expectedGenesisId.forM (validateId · "expected genesis id")

/-- The blocks in turn; `previous` is the one before, `ids` are the ids of all before. -/
def validateRecoveredFrom (previous : Option CatalogBlockCheckpoint) (ids : List Text) :
    List CatalogL1Block → CatalogEngineResult Unit
  | [] => pure ()
  | block :: rest => do
    validateCheckpointOf block.checkpoint "recovered block"
    reject (block.checkpoint.blockId ∈ ids)
      (.sourceInconsistent "recovered ancestry contains duplicate block ids")
    reject (∃ before ∈ previous, block.checkpoint.slot ≤ before.slot ∨
        block.checkpoint.parentId ≠ before.blockId)
      (.sourceInconsistent "recovered ancestry is not strictly ascending and parent-linked")
    validateRecoveredFrom (some block.checkpoint) (block.checkpoint.blockId :: ids) rest

def validateRecoveredChain (recovered : List CatalogL1Block) : CatalogEngineResult Unit :=
  validateRecoveredFrom none [] recovered

def validateConnectedRepair (request : CatalogAncestryRepairRequest)
    (recovered : List CatalogL1Block) : CatalogEngineResult Unit := do
  validateRepairRequest request
  match recovered.head?, recovered.getLast? with
  | some oldest, some newest =>
    validateRecoveredChain recovered
    reject (newest.checkpoint.blockId ≠ request.upperCheckpoint.parentId)
      (.invalidState "repair does not reach upper block parent")
    reject (request.upperCheckpoint.slot ≤ newest.checkpoint.slot)
      (.sourceInconsistent "repaired ancestry does not precede upper block")
    reject (∃ block ∈ recovered, block.checkpoint.blockId = request.upperCheckpoint.blockId)
      (.sourceInconsistent "repaired ancestry contains upper boundary block")
    match request.lowerCheckpoint with
    | some lower =>
      reject (oldest.checkpoint.slot ≤ lower.slot ∨
          ∃ block ∈ recovered, block.checkpoint.blockId = lower.blockId)
        (.sourceInconsistent "repaired ancestry crosses a requested boundary")
      reject (oldest.checkpoint.parentId ≠ lower.blockId)
        (.invalidState "repair does not reach lower checkpoint")
    | none =>
      reject (oldest.checkpoint.slot ≠ 0)
        (.invalidState "prefix repair does not reach slot-zero block")
      reject (∃ expected ∈ request.expectedGenesisId, expected ≠ oldest.checkpoint.blockId)
        (.sourceInconsistent "prefix repair reached conflicting genesis id")
  | _, _ =>
    reject (∀ lower ∈ request.lowerCheckpoint, request.upperCheckpoint.parentId ≠ lower.blockId)
      (.invalidState "empty repair does not connect ancestry")

def validateUnresolvedRepair (request : CatalogAncestryRepairRequest)
    (recovered : List CatalogL1Block) (missingBlockId : Text)
    (upper : CatalogBlockCheckpoint) : CatalogEngineResult Unit := do
  validateRepairRequest request
  validateId missingBlockId "unresolved repair block id"
  reject (upper ≠ request.upperCheckpoint)
    (.invalidState "unresolved repair upper checkpoint changed")
  reject (∃ lower ∈ request.lowerCheckpoint, lower.blockId = missingBlockId)
    (.invalidState "unresolved repair already reaches lower checkpoint")
  match recovered.head?, recovered.getLast? with
  | some oldest, some newest =>
    validateRecoveredChain recovered
    reject (oldest.checkpoint.parentId ≠ missingBlockId ∨
        newest.checkpoint.blockId ≠ upper.parentId)
      (.invalidState "unresolved repair chain does not match gap boundaries")
    reject (upper.slot ≤ newest.checkpoint.slot ∨
        (∃ lower ∈ request.lowerCheckpoint, oldest.checkpoint.slot ≤ lower.slot) ∨
        (request.lowerCheckpoint = none ∧ oldest.checkpoint.slot = 0) ∨
        ∃ block ∈ recovered, block.checkpoint.blockId = missingBlockId ∨
          block.checkpoint.blockId = upper.blockId ∨
          ∃ lower ∈ request.lowerCheckpoint, block.checkpoint.blockId = lower.blockId)
      (.sourceInconsistent "unresolved ancestry crosses a requested boundary")
  | _, _ =>
    reject (upper.parentId ≠ missingBlockId)
      (.invalidState "unresolved repair id does not match upper parent")

def validateRepairConfirmation (snapshot : CatalogSnapshot)
    (expectedLower : Option CatalogBlockReference) (confirmation : CatalogRepairConfirmation)
    (requireUpperFrontier : Bool) : CatalogEngineResult Unit := do
  validateReferenceOf confirmation.targetLib "confirmed target LIB"
  let target ← currentTarget snapshot
  reject (confirmation.targetLib ≠ target)
    (.sourceInconsistent "repair confirmation target LIB changed")
  reject (confirmation.lowerCheckpoint ≠ expectedLower)
    (.sourceInconsistent "repair confirmation lower checkpoint changed")
  confirmation.lowerCheckpoint.forM (validateReferenceOf · "confirmed lower checkpoint")
  confirmation.upperFrontierCheckpoint.forM (validateCheckpointOf · "confirmed upper frontier")
  if requireUpperFrontier then
    let persisted ← required (snapshot.frontier.bind CatalogFrontier.checkpoint)
      (.invalidState "prefix repair has no persisted frontier checkpoint")
    reject (confirmation.upperFrontierCheckpoint ≠ some persisted)
      (.sourceInconsistent "repair confirmation frontier checkpoint changed")
  else pure ()

/-! ### Coverage of the working copy -/

def setConnectedFrontierCheckpoint (working : WorkingCatalog)
    (checkpoint : CatalogBlockCheckpoint) : WorkingCatalog :=
  { working with
    frontier := working.frontier.map fun frontier =>
      { frontier with
        scannedThroughSlot := some checkpoint.slot
        checkpoint := some checkpoint } }

/-- The status of a catalog whose coverage reaches the target or not, has gaps or not, and
starts at slot `0` or not. -/
def coverageStatusOf (reachesTarget : Bool) (gaps : GapTable) (frontier : CatalogFrontier) :
    CatalogCoverageStatus :=
  if reachesTarget = true ∧ gaps.records = [] ∧ frontier.prefixStatus = .complete ∧
      frontier.coverageFloor = some 0 then .complete
  else if reachesTarget = true ∨ gaps.records ≠ [] ∨ frontier.prefixStatus = .unavailable then
    .partialCoverage
  else .rebuilding

def recomputeCoverage (working : WorkingCatalog) : CatalogEngineResult WorkingCatalog := do
  let target ← currentTargetInWorking working
  let reachesTarget := working.segments.records.any fun segment =>
    segment.reachesTargetLib && decide (segment.frontier = target)
  let frontier ← required working.frontier (.invalidState "catalog frontier is missing")
  let frontier := { frontier with observedLib := some target }
  pure { working with
    frontier := some { frontier with
      coverageStatus := coverageStatusOf reachesTarget working.gaps frontier } }

/-- Evidence of the segment `oldSegmentId` moved to another segment. -/
def moveEvidence (oldSegmentId newSegmentId : Text) (evidence : ZoneEvidenceReference) :
    ZoneEvidenceReference :=
  if evidence.coverageSegmentId = oldSegmentId then
    { evidence with coverageSegmentId := newSegmentId }
  else evidence

/-- A zone whose summary comes from the segment `oldSegmentId` moved to another segment. -/
def moveZone (oldSegmentId newSegmentId : Text) (context : CatalogEngineContext)
    (zone : ZoneCatalogRecord) : ZoneCatalogRecord :=
  if zone.snapshotProvenance.coverageSegmentId = oldSegmentId then
    { zone with
      snapshotProvenance :=
        { zone.snapshotProvenance with
          coverageSegmentId := newSegmentId
          sourceRevision := context.sourceRevision }
      updatedAtUnix := context.updatedAtUnix }
  else zone

@[simp] theorem moveEvidence_evidenceId (old new : Text) (e : ZoneEvidenceReference) :
    (moveEvidence old new e).evidenceId = e.evidenceId := by
  unfold moveEvidence
  split_ifs <;> rfl

@[simp] theorem moveZone_channelId (old new : Text) (context : CatalogEngineContext)
    (z : ZoneCatalogRecord) : (moveZone old new context z).channelId = z.channelId := by
  unfold moveZone
  split_ifs <;> rfl

/-- Give the evidence of one segment to another, and compute the records of its channels
anew. -/
def reassignSegment (working : WorkingCatalog) (oldSegmentId newSegmentId : Text)
    (context : CatalogEngineContext) : CatalogEngineResult WorkingCatalog := do
  let channels := (working.evidence.records.filter
    (fun evidence => evidence.coverageSegmentId = oldSegmentId)).foldl
      (fun channels evidence => channels.insert evidence.channelId) (Table.empty : IdSet)
  let working := { working with
    evidence := working.evidence.modifyAll (moveEvidence oldSegmentId newSegmentId)
      (moveEvidence_evidenceId oldSegmentId newSegmentId)
    zones := working.zones.modifyAll (moveZone oldSegmentId newSegmentId context)
      (moveZone_channelId oldSegmentId newSegmentId context) }
  let target ← currentTargetInWorking working
  recomputeZoneRecords working channels target.slot context

def segmentIdForFloor (floor : CatalogBlockCheckpoint) : Text :=
  "segment-".toList ++ floor.blockId

def gapIdForBoundary (ext : Externals) (lower : CatalogBlockReference)
    (upper : CatalogBlockCheckpoint) : Text :=
  "gap-".toList ++
    Text.hexEncode (ext.sha256 (Text.bytes lower.blockId ++ Text.bytes upper.blockId))

/-! ### Setting the target -/

/-- The frontier of a catalog that has none yet. -/
def initialFrontier : CatalogFrontier where
  scannedThroughSlot := none
  checkpoint := none
  observedLib := none
  coverageFloor := none
  prefixStatus := .unknown
  coverageStatus := .rebuilding

def prepareCatalogCatchUpWithResume (snapshot : CatalogSnapshot)
    (targetLib : CatalogBlockReference) (context : CatalogEngineContext)
    (reconcileUnfinishedTarget : Bool) : CatalogEngineResult (Option CatalogBatch) := do
  validateContext snapshot context
  validateReferenceOf targetLib "target LIB"
  let cursor := ingestionCursor snapshot.traversal
  cursor.forM fun cursor => do
    reject (targetLib.slot < cursor.slot)
      (.sourceInconsistent ("target LIB slot " ++ toString targetLib.slot ++
        " is behind ingestion cursor slot " ++ toString cursor.slot))
    reject (cursor.slot = targetLib.slot ∧ cursor.blockId ≠ targetLib.blockId)
      (.sourceInconsistent "target LIB id conflicts with the ingestion cursor at the same slot")
  (snapshot.traversal.bind CatalogTraversal.targetLib).forM fun previousTarget => do
    let unfinishedTarget := ∀ c ∈ cursor, c.slot < previousTarget.slot
    reject (targetLib.slot < previousTarget.slot ∧
        ¬ (reconcileUnfinishedTarget = true ∧ unfinishedTarget))
      (.sourceInconsistent ("target LIB moved backward from slot " ++
        toString previousTarget.slot ++ " to " ++ toString targetLib.slot))
    reject (previousTarget.slot = targetLib.slot ∧ previousTarget.blockId ≠ targetLib.blockId)
      (.sourceInconsistent "target LIB id changed at the same slot")
  let traversal : Option CatalogTraversal :=
    some { targetLib := some targetLib, ingestionCursor := cursor }
  let frontier := { snapshot.frontier.getD initialFrontier with observedLib := some targetLib }
  let upsertSegments := snapshot.segments.records.filterMap fun segment =>
    let reachesTargetLib := decide (segment.frontier = targetLib)
    if segment.reachesTargetLib ≠ reachesTargetLib then
      some { segment with reachesTargetLib := reachesTargetLib }
    else none
  let reachesTarget := snapshot.segments.records.any fun segment =>
    decide (segment.frontier = targetLib)
  let frontier := some { frontier with
    coverageStatus := coverageStatusOf reachesTarget snapshot.gaps frontier }
  let upsertZones := (snapshot.zones.records.filter
      (fun zone => zone.l1Channel.libSlot ≠ some targetLib.slot)).map fun zone =>
    { zone with
      l1Channel := { zone.l1Channel with libSlot := some targetLib.slot }
      updatedAtUnix := context.updatedAtUnix }
  if upsertSegments = [] ∧ upsertZones = [] ∧ frontier = snapshot.frontier ∧
      traversal = snapshot.traversal then
    pure none
  else
    pure (some
      { expectedCatalogRevision := snapshot.metadata.catalogRevision
        updatedAtUnix := context.updatedAtUnix
        upsertZones := upsertZones
        deleteZoneIds := []
        upsertEvidence := []
        deleteEvidenceIds := []
        upsertSegments := upsertSegments
        deleteSegmentIds := []
        upsertGaps := []
        deleteGapIds := []
        frontier := frontier
        traversal := traversal })

def prepareCatalogCatchUp (snapshot : CatalogSnapshot) (targetLib : CatalogBlockReference)
    (context : CatalogEngineContext) : CatalogEngineResult (Option CatalogBatch) :=
  prepareCatalogCatchUpWithResume snapshot targetLib context false

/-! ### Reading a page -/

/-- The events that go on from `previous`, each the child of the one before, and the rest. -/
def splitAfter (previous : CatalogBlockCheckpoint) : List CatalogL1BlockEvent →
    CatalogEngineResult (List CatalogL1BlockEvent × List CatalogL1BlockEvent)
  | [] => pure ([], [])
  | event :: rest =>
    if previous.slot < event.block.checkpoint.slot ∧
        event.block.checkpoint.parentId = previous.blockId then do
      let (accepted, remaining) ← splitAfter event.block.checkpoint rest
      pure (event :: accepted, remaining)
    else do
      reject (event.block.checkpoint.slot ≤ previous.slot)
        (.sourceInconsistent "page block slots are not strictly ascending")
      pure ([], event :: rest)

def splitConnectedEvents (events : List CatalogL1BlockEvent) :
    CatalogEngineResult (List CatalogL1BlockEvent × List CatalogL1BlockEvent) :=
  match events with
  | [] => throw (.invalidState "cannot split an empty event page")
  | first :: rest => do
    let (accepted, remaining) ← splitAfter first.block.checkpoint rest
    pure (first :: accepted, remaining)

def prependRecoveredEvents (recoveredBlocks : List CatalogL1Block)
    (pendingEvents : List CatalogL1BlockEvent) (snapshot : CatalogL1ChainSnapshot) :
    List CatalogL1BlockEvent :=
  recoveredBlocks.map (fun block => ⟨block, snapshot⟩) ++ pendingEvents

/-- The segment that goes on at the cursor, or a first one that starts at slot `0`. -/
def connectedSegment (working : WorkingCatalog) (first : CatalogBlockCheckpoint) :
    CatalogEngineResult (Text × WorkingCatalog) :=
  match ingestionCursor working.traversal with
  | some cursor => do
    let segmentId ← activeSegmentIdIn working.segments cursor
    pure (segmentId, working)
  | none => do
    let segmentId := segmentIdForFloor first
    reject (working.segments.contains segmentId = true)
      (.invalidState ("initial segment " ++ segmentId.toMessage ++ " already exists"))
    let segment : CoverageSegment :=
      { segmentId := segmentId
        floor := first
        frontier := blockReference first
        reachesTargetLib := false }
    let frontier ← required working.frontier (.invalidState "catch-up frontier is missing")
    pure (segmentId, { working with
      segments := working.segments.insert segment
      frontier := some { frontier with coverageFloor := some 0, prefixStatus := .complete } })

/-- Read blocks at the end of the highest segment, or of a first segment from slot `0`. -/
def applyConnectedEvents (ext : Externals) (snapshot : CatalogSnapshot)
    (events : List CatalogL1BlockEvent) (context : CatalogEngineContext) :
    CatalogEngineResult CatalogBatch := do
  let first ← required events.head? (.invalidState "connected page has no accepted events")
  let last ← required events.getLast? (.invalidState "connected page has no final event")
  let target ← currentTarget snapshot
  let (segmentId, working) ← connectedSegment (WorkingCatalog.fromSnapshot snapshot)
    first.block.checkpoint
  let working ← ingestBlocks ext working (events.map CatalogL1BlockEvent.block) segmentId context
  let segment ← required (working.segments.find? segmentId)
    (.invalidState ("active segment " ++ segmentId.toMessage ++ " is missing"))
  let frontier := blockReference last.block.checkpoint
  let traversal ← required working.traversal (.invalidState "catch-up traversal is missing")
  let working := { working with
    segments := working.segments.insert
      { segment with frontier := frontier, reachesTargetLib := decide (frontier = target) }
    traversal := some { traversal with ingestionCursor := some frontier } }
  let working :=
    if working.gaps.records = [] then
      setConnectedFrontierCheckpoint working last.block.checkpoint
    else working
  let working ← recomputeCoverage working
  required (working.intoBatch snapshot context) (.invalidState "page reduction produced no change")

def repairRequest (lowerCheckpoint : Option CatalogBlockReference)
    (upperCheckpoint : CatalogBlockCheckpoint) (snapshot : CatalogSnapshot)
    (context : CatalogEngineContext) : CatalogAncestryRepairRequest where
  lowerCheckpoint := lowerCheckpoint
  upperCheckpoint := upperCheckpoint
  expectedGenesisId := match snapshot.metadata.networkScope with
    | .genesisId genesisId => some genesisId
    | .finalizedAnchor .. => none
  maxBlocks := context.repairBlockLimit
  maxBlocks_pos := context.repairBlockLimit_pos

/-- The search that a page makes necessary, if its first block does not go on at the cursor. -/
def pageRepairRequest (snapshot : CatalogSnapshot) (first : CatalogBlockCheckpoint)
    (context : CatalogEngineContext) :
    CatalogEngineResult (Option CatalogAncestryRepairRequest) :=
  match ingestionCursor snapshot.traversal with
  | some cursor => do
    let _ ← activeSegmentIdIn snapshot.segments cursor
    reject (first.slot ≤ cursor.slot)
      (.sourceInconsistent ("page starts at slot " ++ toString first.slot ++
        ", not after cursor slot " ++ toString cursor.slot))
    if first.parentId ≠ cursor.blockId then
      pure (some (repairRequest (some cursor) first snapshot context))
    else pure none
  | none => do
    reject (snapshot.segments.records ≠ [] ∨ snapshot.gaps.records ≠ [])
      (.invalidState "catalog has coverage records without an ingestion cursor")
    if first.slot ≠ 0 then pure (some (repairRequest none first snapshot context))
    else do
      validateGenesisBlock snapshot first
      pure none

/-- **Read a page** that goes on where reading stopped, or ask for what is in between. -/
def reduceCatalogPage (ext : Externals) (snapshot : CatalogSnapshot)
    (page : CatalogL1RangePage) (context : CatalogEngineContext) :
    CatalogEngineResult CatalogPageReduction := do
  validateContext snapshot context
  match page.events.head? with
  | none => pure .noProgress
  | some first => do
    validatePageSnapshots page.events
    let target ← currentTarget snapshot
    forM page.events (validateEventAgainstTarget target)
    validateStrictlyAscendingSlots page.events
    let request ← pageRepairRequest snapshot first.block.checkpoint context
    match request with
    | some request => pure (.repairRequired request page.events)
    | none => do
      let (accepted, remaining) ← splitConnectedEvents page.events
      let batch ← applyConnectedEvents ext snapshot accepted context
      pure (.commit batch remaining)

def reduceCatalogRepair (ext : Externals) (snapshot : CatalogSnapshot)
    (request : CatalogAncestryRepairRequest) (pendingEvents : List CatalogL1BlockEvent)
    (outcome : CatalogAncestryRepairOutcome) (context : CatalogEngineContext) :
    CatalogEngineResult CatalogPageReduction := do
  validateContext snapshot context
  let pendingFirst ← required pendingEvents.head?
    (.invalidState "repair continuation has no pending upper block")
  reject (pendingFirst.block.checkpoint ≠ request.upperCheckpoint)
    (.invalidState "repair continuation upper block changed")
  match outcome with
  | .connected recoveredBlocks => do
    validateConnectedRepair request recoveredBlocks
    reduceCatalogPage ext snapshot
      ⟨prependRecoveredEvents recoveredBlocks pendingEvents pendingFirst.snapshot⟩ context
  | .unresolved recoveredBlocks missingBlockId reason => do
    validateUnresolvedRepair request recoveredBlocks missingBlockId pendingFirst.block.checkpoint
    pure (.gapConfirmationRequired request pendingEvents
      (.unresolved recoveredBlocks missingBlockId reason))

/-- Record what lies below a new segment from `first` to `last`: a gap above the cursor, or
the missing prefix of the chain. -/
def openBelow (ext : Externals) (snapshot : CatalogSnapshot) (working : WorkingCatalog)
    (first last : CatalogBlockCheckpoint) (missingBlockId : Text) (reason : CoverageGapReason)
    (context : CatalogEngineContext) : CatalogEngineResult WorkingCatalog :=
  match ingestionCursor working.traversal with
  | some lower => do
    let lowerSegmentId ← activeSegmentIdIn working.segments lower
    let gap : CoverageGap :=
      { gapId := gapIdForBoundary ext lower first
        lowerSegmentId := lowerSegmentId
        lowerCheckpoint := lower
        upperSegmentId := segmentIdForFloor first
        upperBlock := blockReference first
        requiredParentId := missingBlockId
        reason := reason
        status := .pending
        attempts := 1
        firstSeenAtUnix := context.updatedAtUnix
        lastAttemptAtUnix := some context.updatedAtUnix }
    pure { working with gaps := working.gaps.insert gap }
  | none => do
    reject (snapshot.segments.records ≠ [] ∨ snapshot.gaps.records ≠ [])
      (.invalidState "unavailable prefix cannot open over existing coverage")
    let frontier ← required working.frontier (.invalidState "catch-up frontier is missing")
    pure (setConnectedFrontierCheckpoint
      { working with
        frontier := some { frontier with
          coverageFloor := some first.slot
          prefixStatus := .unavailable } }
      last)

/-- Read blocks as a new segment, above a gap or above a missing prefix. -/
def openDisconnectedSegment (ext : Externals) (snapshot : CatalogSnapshot)
    (events : List CatalogL1BlockEvent) (missingBlockId : Text) (reason : CoverageGapReason)
    (context : CatalogEngineContext) : CatalogEngineResult CatalogPageReduction := do
  validateId missingBlockId "missing repair block id"
  validatePageSnapshots events
  let target ← currentTarget snapshot
  forM events (validateEventAgainstTarget target)
  validateStrictlyAscendingSlots events
  let (accepted, remaining) ← splitConnectedEvents events
  let first ← required accepted.head? (.invalidState "disconnected segment has no floor block")
  let last ← required accepted.getLast? (.invalidState "disconnected segment has no frontier block")
  reject (first.block.checkpoint.parentId ≠ missingBlockId)
    (.invalidState "disconnected floor does not reference unresolved parent")
  let working := WorkingCatalog.fromSnapshot snapshot
  let segmentId := segmentIdForFloor first.block.checkpoint
  reject (working.segments.contains segmentId = true)
    (.invalidState ("disconnected segment " ++ segmentId.toMessage ++ " already exists"))
  let frontierReference := blockReference last.block.checkpoint
  let segment : CoverageSegment :=
    { segmentId := segmentId
      floor := first.block.checkpoint
      frontier := frontierReference
      reachesTargetLib := decide (frontierReference = target) }
  let working := { working with segments := working.segments.insert segment }
  let working ← openBelow ext snapshot working first.block.checkpoint last.block.checkpoint
    missingBlockId reason context
  let working ← ingestBlocks ext working (accepted.map CatalogL1BlockEvent.block) segmentId context
  let traversal ← required working.traversal (.invalidState "catch-up traversal is missing")
  let working := { working with
    traversal := some { traversal with ingestionCursor := some frontierReference } }
  let working ← recomputeCoverage working
  let batch ← required (working.intoBatch snapshot context)
    (.invalidState "disconnected reduction produced no change")
  pure (.commit batch remaining)

def confirmCatalogRepairGap (ext : Externals) (snapshot : CatalogSnapshot)
    (request : CatalogAncestryRepairRequest) (pendingEvents : List CatalogL1BlockEvent)
    (outcome : CatalogAncestryRepairOutcome) (confirmation : CatalogRepairConfirmation)
    (context : CatalogEngineContext) : CatalogEngineResult CatalogPageReduction := do
  validateContext snapshot context
  validateRepairConfirmation snapshot request.lowerCheckpoint confirmation false
  let pendingFirst ← required pendingEvents.head?
    (.invalidState "gap confirmation has no pending upper block")
  reject (pendingFirst.block.checkpoint ≠ request.upperCheckpoint)
    (.invalidState "gap confirmation upper block changed")
  match outcome with
  | .unresolved recoveredBlocks missingBlockId reason => do
    validateUnresolvedRepair request recoveredBlocks missingBlockId pendingFirst.block.checkpoint
    openDisconnectedSegment ext snapshot
      (prependRecoveredEvents recoveredBlocks pendingEvents pendingFirst.snapshot)
      missingBlockId reason context
  | .connected _ => throw (.invalidState "gap confirmation requires unresolved repair")

/-! ### Repairing the prefix and the gaps -/

def catalogGapRepairRequest (snapshot : CatalogSnapshot) (gapId : Text)
    (context : CatalogEngineContext) : CatalogEngineResult CatalogAncestryRepairRequest := do
  validateContext snapshot context
  let gap ← required (snapshot.gaps.find? gapId) (.invalidState ("unknown gap " ++ gapId.toMessage))
  let upper ← required (snapshot.segments.find? gap.upperSegmentId)
    (.invalidState ("gap " ++ gap.gapId.toMessage ++ " has no upper segment " ++
      gap.upperSegmentId.toMessage))
  pure
    { lowerCheckpoint := some gap.lowerCheckpoint
      upperCheckpoint := upper.floor
      expectedGenesisId := none
      maxBlocks := context.repairBlockLimit
      maxBlocks_pos := context.repairBlockLimit_pos }

def catalogPrefixRepairRequest (snapshot : CatalogSnapshot) (context : CatalogEngineContext) :
    CatalogEngineResult CatalogAncestryRepairRequest := do
  validateContext snapshot context
  let frontier ← required snapshot.frontier (.invalidState "catalog frontier is missing")
  reject (frontier.prefixStatus ≠ .unavailable)
    (.invalidState "catalog prefix is not marked unavailable")
  let floor ← required frontier.coverageFloor
    (.invalidState "unavailable prefix has no coverage floor")
  let segment ← required
    (snapshot.segments.records.find? (fun segment => segment.floor.slot = floor))
    (.invalidState "unavailable prefix has no matching first segment")
  pure (repairRequest none segment.floor snapshot context)

/-- The frontier after blocks down to `oldest` were read below the first segment. -/
def prefixRepairedFrontier (outcome : CatalogAncestryRepairOutcome)
    (oldest : CatalogBlockCheckpoint) (frontier : CatalogFrontier) : CatalogFrontier :=
  match outcome with
  | .connected _ => { frontier with coverageFloor := some 0, prefixStatus := .complete }
  | .unresolved .. => { frontier with coverageFloor := some oldest.slot }

/-- Read blocks below the first segment: all that precede it, or some of them. -/
def applyPrefixRepair (ext : Externals) (snapshot : CatalogSnapshot)
    (upperCheckpoint : CatalogBlockCheckpoint) (outcome : CatalogAncestryRepairOutcome)
    (context : CatalogEngineContext) : CatalogEngineResult (Option CatalogBatch) := do
  let working := WorkingCatalog.fromSnapshot snapshot
  let segment ← required
    (working.segments.records.find? (fun segment => segment.floor = upperCheckpoint))
    (.invalidState "prefix segment disappeared")
  let segmentId := segment.segmentId
  let oldest ← required outcome.recoveredBlocks.head? (.invalidState (match outcome with
      | .connected _ => "connected prefix repair has no genesis block"
      | .unresolved .. => "validated prefix repair lost its recovered blocks"))
  let working ← ingestBlocks ext working outcome.recoveredBlocks segmentId context
  let segment ← required (working.segments.find? segmentId)
    (.invalidState "prefix segment is missing")
  let frontier ← required working.frontier (.invalidState "catalog frontier is missing")
  let working := { working with
    segments := working.segments.insert { segment with floor := oldest.checkpoint }
    frontier := some (prefixRepairedFrontier outcome oldest.checkpoint frontier) }
  let working ← recomputeCoverage working
  pure (working.intoBatch snapshot context)

def reduceCatalogPrefixRepair (ext : Externals) (snapshot : CatalogSnapshot)
    (outcome : CatalogAncestryRepairOutcome) (confirmation : CatalogRepairConfirmation)
    (context : CatalogEngineContext) : CatalogEngineResult (Option CatalogBatch) := do
  validateContext snapshot context
  validateRepairConfirmation snapshot none confirmation true
  let request ← catalogPrefixRepairRequest snapshot context
  match outcome with
  | .connected recoveredBlocks => do
    validateConnectedRepair request recoveredBlocks
    applyPrefixRepair ext snapshot request.upperCheckpoint outcome context
  | .unresolved recoveredBlocks missingBlockId _ => do
    validateUnresolvedRepair request recoveredBlocks missingBlockId request.upperCheckpoint
    if recoveredBlocks = [] then pure none
    else applyPrefixRepair ext snapshot request.upperCheckpoint outcome context

/-- A gap that lies next to a segment which another segment has absorbed. -/
def reattachGap (oldSegmentId newSegmentId : Text) (adjacent : CoverageGap) : CoverageGap :=
  { adjacent with
    lowerSegmentId :=
      if adjacent.lowerSegmentId = oldSegmentId then newSegmentId else adjacent.lowerSegmentId
    upperSegmentId :=
      if adjacent.upperSegmentId = oldSegmentId then newSegmentId else adjacent.upperSegmentId }

@[simp] theorem reattachGap_gapId (old new : Text) (gap : CoverageGap) :
    (reattachGap old new gap).gapId = gap.gapId := rfl

/-- Read the blocks of a gap: its upper segment becomes part of its lower one. -/
def mergeAcrossGap (ext : Externals) (working : WorkingCatalog) (gap : CoverageGap)
    (lower upper : CoverageSegment) (recoveredBlocks : List CatalogL1Block)
    (confirmed : CatalogBlockCheckpoint) (context : CatalogEngineContext) :
    CatalogEngineResult WorkingCatalog := do
  let working ← reassignSegment working upper.segmentId lower.segmentId context
  let working ← ingestBlocks ext working recoveredBlocks lower.segmentId context
  let merged : CoverageSegment :=
    { segmentId := lower.segmentId
      floor := lower.floor
      frontier := upper.frontier
      reachesTargetLib := upper.reachesTargetLib }
  let working := { working with
    segments := (working.segments.insert merged).erase upper.segmentId
    gaps := (working.gaps.erase gap.gapId).modifyAll (reattachGap upper.segmentId lower.segmentId)
      (reattachGap_gapId upper.segmentId lower.segmentId) }
  if ∃ checkpoint ∈ working.frontier.bind CatalogFrontier.checkpoint,
      checkpoint.blockId = gap.lowerCheckpoint.blockId then
    pure (setConnectedFrontierCheckpoint working confirmed)
  else pure working

/-- Read blocks below the upper segment of a gap that do not reach its lower one. -/
def shrinkGap (ext : Externals) (working : WorkingCatalog) (gap : CoverageGap)
    (upper : CoverageSegment) (recoveredBlocks : List CatalogL1Block) (missingBlockId : Text)
    (reason : CoverageGapReason) (context : CatalogEngineContext) :
    CatalogEngineResult WorkingCatalog := do
  reject (2 ^ 32 ≤ gap.attempts + 1) (.overflow "coverage gap attempts exhausted")
  let updatedGap := { gap with
    attempts := gap.attempts + 1
    lastAttemptAtUnix := some context.updatedAtUnix
    status := .backoff
    reason := reason }
  match recoveredBlocks.head? with
  | some oldest => do
    let expandedUpper := { upper with floor := oldest.checkpoint }
    let updatedGap := { updatedGap with
      upperBlock := blockReference oldest.checkpoint
      requiredParentId := missingBlockId }
    let working ← ingestBlocks ext working recoveredBlocks expandedUpper.segmentId context
    pure { working with
      segments := working.segments.insert expandedUpper
      gaps := working.gaps.insert updatedGap }
  | none => pure { working with gaps := working.gaps.insert updatedGap }

/-- Read the blocks that a search for the blocks of a gap has found. -/
def applyGapRepair (ext : Externals) (working : WorkingCatalog) (gap : CoverageGap)
    (lower upper : CoverageSegment) (request : CatalogAncestryRepairRequest)
    (outcome : CatalogAncestryRepairOutcome) (confirmation : CatalogRepairConfirmation)
    (context : CatalogEngineContext) : CatalogEngineResult WorkingCatalog :=
  match outcome with
  | .connected recoveredBlocks => do
    validateConnectedRepair request recoveredBlocks
    let confirmed ← required confirmation.upperFrontierCheckpoint
      (.invalidState "connected gap repair requires verified upper frontier checkpoint")
    validateCheckpointOf confirmed "verified upper frontier"
    reject (confirmed.slot ≠ upper.frontier.slot ∨ confirmed.blockId ≠ upper.frontier.blockId)
      (.sourceInconsistent "verified upper frontier does not match persisted segment")
    mergeAcrossGap ext working gap lower upper recoveredBlocks confirmed context
  | .unresolved recoveredBlocks missingBlockId reason => do
    validateUnresolvedRepair request recoveredBlocks missingBlockId upper.floor
    shrinkGap ext working gap upper recoveredBlocks missingBlockId reason context

def reduceCatalogGapRepair (ext : Externals) (snapshot : CatalogSnapshot) (gapId : Text)
    (outcome : CatalogAncestryRepairOutcome) (confirmation : CatalogRepairConfirmation)
    (context : CatalogEngineContext) : CatalogEngineResult CatalogBatch := do
  validateContext snapshot context
  let working := WorkingCatalog.fromSnapshot snapshot
  let gap ← required (working.gaps.find? gapId) (.invalidState ("unknown gap " ++ gapId.toMessage))
  let lower ← required (working.segments.find? gap.lowerSegmentId)
    (.invalidState "gap lower segment is missing")
  let upper ← required (working.segments.find? gap.upperSegmentId)
    (.invalidState "gap upper segment is missing")
  let request : CatalogAncestryRepairRequest :=
    { lowerCheckpoint := some gap.lowerCheckpoint
      upperCheckpoint := upper.floor
      expectedGenesisId := none
      maxBlocks := context.repairBlockLimit
      maxBlocks_pos := context.repairBlockLimit_pos }
  validateRepairConfirmation snapshot request.lowerCheckpoint confirmation false
  let working ← applyGapRepair ext working gap lower upper request outcome confirmation context
  let working ← recomputeCoverage working
  required (working.intoBatch snapshot context) (.invalidState "gap repair produced no change")

/-! ### Searching for blocks -/

/-- What a source answers when asked for a block by its id. -/
abbrev BlockLookup := Text → Except CatalogL1SourceError (Option CatalogL1Block)

/-- A block that a source answers with during a search must have valid ids. -/
def validateFoundBlock (found : CatalogL1Block) : CatalogEngineResult Unit :=
  match validateCheckpointOf found.checkpoint "repair block" with
  | .ok () => pure ()
  | .error (.invalidState detail) => throw (.sourceInconsistent
      ("repair returned an invalid checkpoint: invalid catalog engine state: " ++ detail))
  | .error error => throw error

/-- Follow the parent ids down from `requestedId`, the parent of a block at `childSlot`;
`recovered` are the blocks found so far, `visited` the ids asked for, and at most
`remaining` more blocks are asked for. -/
def repairAncestryFrom (block : BlockLookup) (request : CatalogAncestryRepairRequest) :
    (remaining : ℕ) → (requestedId : Text) → (childSlot : ℕ) →
    (recovered : List CatalogL1Block) → (visited : List Text) →
    CatalogEngineResult CatalogAncestryRepairOutcome
  | remaining, requestedId, childSlot, recovered, visited =>
    if ∃ lower ∈ request.lowerCheckpoint, lower.blockId = requestedId then
      pure (.connected recovered)
    else match remaining with
      | 0 => pure (.unresolved recovered requestedId .missingParent)
      | remaining + 1 => do
        reject (requestedId ∈ visited)
          (.sourceInconsistent ("repair ancestry cycles at block " ++ requestedId.toMessage))
        match block requestedId with
        | .error (.unavailable _) =>
          pure (.unresolved recovered requestedId .sourceUnavailable)
        | .error error => throw (.sourceInconsistent error.toText)
        | .ok none => pure (.unresolved recovered requestedId .missingBlockBody)
        | .ok (some found) => do
          validateFoundBlock found
          reject (found.checkpoint.blockId ≠ requestedId)
            (.sourceInconsistent ("repair returned block " ++
              found.checkpoint.blockId.toMessage ++ ", requested " ++ requestedId.toMessage))
          reject (childSlot ≤ found.checkpoint.slot)
            (.sourceInconsistent ("repair block " ++ found.checkpoint.blockId.toMessage ++
              " at slot " ++ toString found.checkpoint.slot ++ " does not precede child slot " ++
              toString childSlot))
          request.lowerCheckpoint.forM fun lower =>
            reject (found.checkpoint.slot ≤ lower.slot)
              (.sourceInconsistent ("repair crossed lower checkpoint slot " ++
                toString lower.slot ++ " without reaching block " ++
                lower.blockId.toMessage))
          if request.lowerCheckpoint = none ∧ found.checkpoint.slot = 0 then do
            reject (∃ expected ∈ request.expectedGenesisId, expected ≠ found.checkpoint.blockId)
              (.sourceInconsistent "repair reached a conflicting genesis block")
            pure (.connected (found :: recovered))
          else
            repairAncestryFrom block request remaining found.checkpoint.parentId
              found.checkpoint.slot (found :: recovered) (requestedId :: visited)

def repairCatalogAncestry (block : BlockLookup) (request : CatalogAncestryRepairRequest) :
    CatalogEngineResult CatalogAncestryRepairOutcome := do
  validateRepairRequest request
  repairAncestryFrom block request request.maxBlocks request.upperCheckpoint.parentId
    request.upperCheckpoint.slot [] []

end LogosInspector.Catalog
