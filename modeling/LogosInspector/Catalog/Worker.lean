import LogosInspector.Catalog.Evidence

/-!
# The worker

A worker keeps a catalog up to date with a source. Once the target is reached it repairs, in
each round, the missing prefix or else the first gap of the catalog (`repairOneCatalogGap`): it
searches for the missing blocks, verifies that the source still serves the chain of the catalog
(`verifyCatalogCandidate`), has the engine read what was found, and commits.

To close a gap the engine wants to be shown the block at the end of the segment above it. The
worker shows it the checkpoint of the frontier instead. While there are gaps this is the end of
the *lowest* segment (`Run.checkpoint_lowest`), which never is the upper segment of a gap: so
**the worker closes no gap** (`repairOneCatalogGap_fails`).

The answers of the source, the clock and the state of the worker's run do not change during a
call.
-/

namespace LogosInspector.Catalog

open List Table Option

/-! ### The source and the run of a worker -/

/-- What a source says of its chain. -/
structure CatalogL1ChainStatus where
  snapshot : CatalogL1ChainSnapshot
  genesisId : Option Text

/-- What a source says of the time. -/
structure CatalogL1TimeStatus where
  genesisTimeUnixMs : ℤ

/-- A source: what it answers to each question. -/
structure CatalogL1Source where
  chainStatus : Except CatalogL1SourceError CatalogL1ChainStatus
  timeStatus : Except CatalogL1SourceError CatalogL1TimeStatus
  block : BlockLookup

/-- What the worker reports. -/
inductive ZoneCatalogServiceError
  /-- The source that is to be configured is not a source. -/
  | invalidSource (detail : String)
  /-- The catalog cannot be activated as it is. -/
  | invalidState (detail : String)
  /-- The source failed. -/
  | source (detail : String)
  /-- The store failed. -/
  | catalog (detail : String)
  /-- The worker itself failed. -/
  | worker (detail : String)
  /-- The task of a run did not end by itself. -/
  | join (detail : String)
  /-- The run was cancelled. -/
  | cancelled
  /-- The source settings have changed since the run was started. -/
  | staleRevision (expected current : ℕ)
  deriving DecidableEq

abbrev ZoneCatalogServiceResult := Except ZoneCatalogServiceError

/-- The run of a worker, with the time of its clock. -/
structure ZoneCatalogRunContext where
  sourceRevision : ℕ
  desiredRevision : ℕ
  isCancelled : Bool
  nowUnix : ℕ

def ZoneCatalogRunContext.ensureCurrent (context : ZoneCatalogRunContext) :
    ZoneCatalogServiceResult Unit := do
  reject (context.isCancelled = true) .cancelled
  reject (context.desiredRevision ≠ context.sourceRevision)
    (.staleRevision context.sourceRevision context.desiredRevision)

def mapSourceError (error : CatalogL1SourceError) : ZoneCatalogServiceError :=
  .source (match error with
    | .invalidRequest _ => "catalog L1 request was invalid"
    | .unavailable _ => "catalog L1 source is unavailable"
    | .invalidResponse _ => "catalog L1 source returned invalid data")

def CatalogEngineError.toText : CatalogEngineError → String
  | invalidState detail => "invalid catalog engine state: " ++ detail
  | invalidBlock detail => "invalid finalized block: " ++ detail
  | sourceInconsistent detail => "catalog L1 source is inconsistent: " ++ detail
  | overflow detail => "catalog engine overflow: " ++ detail

def mapEngineError (error : CatalogEngineError) : ZoneCatalogServiceError :=
  .worker ("catalog ingestion validation failed: " ++ error.toText)

def mapCatalogError (error : CatalogError) : ZoneCatalogServiceError :=
  .catalog (match error with
    | .storage _ => error.toText
    | _ => "catalog storage or validation failed")

/-- The limit on the blocks of one repair. -/
def defaultCatalogRepairBlocks : ℕ := 64

def engineContext (context : ZoneCatalogRunContext) (snapshot : CatalogSnapshot) :
    CatalogEngineContext where
  sourceRevision := context.sourceRevision
  updatedAtUnix := max context.nowUnix snapshot.metadata.updatedAtUnix
  repairBlockLimit := defaultCatalogRepairBlocks
  repairBlockLimit_pos := by decide
  repairBlockLimit_le := by decide

/-! ### Verifying the identity of a catalog -/

/-- A change of the identity of a catalog, from an anchor to a genesis id. -/
structure CatalogIdentityPromotion where
  oldScope : NetworkScope
  newScope : NetworkScope
  anchor : CatalogBlockCheckpoint
  checkpoint : CatalogBlockCheckpoint
  assurance : CatalogIdentityAssurance
  deriving DecidableEq

/-- Whether a source serves the chain of a catalog. -/
inductive CatalogCandidateActivation
  /-- It does. -/
  | verified (promotion : Option CatalogIdentityPromotion)
  /-- It has not yet reached the blocks of the catalog. -/
  | sourceBehind (sourceLibSlot requiredSlot : ℕ)
  /-- It cannot tell. -/
  | cachedUnverified (detail : String)
  /-- It does not. -/
  | mismatch (detail : String)
  deriving DecidableEq

def latestCatalogCheckpoint (snapshot : CatalogSnapshot) : Option CatalogBlockCheckpoint :=
  snapshot.frontier.bind CatalogFrontier.checkpoint

def finalizedAnchorAlias (snapshot : CatalogSnapshot) : Option NetworkScope :=
  (snapshot.metadata.identityAliases.reverse.map NetworkIdentityAlias.networkScope).find?
    fun scope => !scope.isGenesisId

def finalizedAnchorCheckpoint : NetworkScope → Option CatalogBlockCheckpoint
  | .finalizedAnchor _ blockSlot blockId parentId => some ⟨blockSlot, blockId, parentId⟩
  | .genesisId _ => none

def finalizedAnchorGenesisTime : NetworkScope → Option Text
  | .finalizedAnchor genesisTime .. => some genesisTime
  | .genesisId _ => none

def genesisIdOf : NetworkScope → Option Text
  | .genesisId genesisId => some genesisId
  | .finalizedAnchor .. => none

def promotionAssurance (snapshot : CatalogSnapshot) (newScope : NetworkScope)
    (checkpoint : CatalogBlockCheckpoint) : CatalogIdentityAssurance :=
  match genesisIdOf newScope with
  | none => .sourceAttested
  | some genesisId =>
    let completePrefix := ∃ frontier ∈ snapshot.frontier, frontier.coverageFloor = some 0 ∧
      frontier.prefixStatus = .complete ∧ frontier.checkpoint = some checkpoint
    let connected := snapshot.gaps.records = [] ∧ snapshot.segments.size = 1 ∧
      ∃ segment ∈ snapshot.segments.records, segment.floor.slot = 0 ∧
        segment.floor.blockId = genesisId ∧ segment.frontier = blockReference checkpoint
    if completePrefix ∧ connected then .ancestryVerified else .sourceAttested

def transitionMatchesPromotion (transition : CatalogIdentityTransition)
    (promotion : CatalogIdentityPromotion) : Bool :=
  transition.oldScope = promotion.oldScope ∧ transition.newScope = promotion.newScope ∧
    transition.anchor = promotion.anchor ∧ transition.checkpoint = promotion.checkpoint

/-- The change of identity that is under way. -/
def pendingTransition (snapshot : CatalogSnapshot) : Option CatalogIdentityTransition :=
  snapshot.metadata.identityTransition.filter fun transition =>
    transition.stage ≠ .committed

/-- What a genesis id that the source reports, or does not report, rules out. -/
def checkReportedGenesis (snapshot : CatalogSnapshot) (reported : Option Text) :
    Option CatalogCandidateActivation :=
  let ofTransition := (pendingTransition snapshot).bind fun transition =>
    match reported with
    | some _ =>
      if reported ≠ genesisIdOf transition.newScope then
        some (.mismatch "source genesis does not match pending identity transition")
      else none
    | none =>
      some (.cachedUnverified "source omitted genesis id required by pending promotion")
  ofTransition.or (match snapshot.metadata.networkScope, reported with
    | .genesisId genesisId, some reported =>
      if genesisId ≠ reported then some (.mismatch "source reported a conflicting genesis id")
      else none
    | .genesisId _, none =>
      if finalizedAnchorAlias snapshot = none then
        some (.cachedUnverified "source omitted genesis id and catalog has no retained anchor")
      else none
    | .finalizedAnchor .., _ => none)

/-- The scope whose anchor is to be checked. -/
def anchorScope (snapshot : CatalogSnapshot) (reported : Option Text) : Option NetworkScope :=
  match snapshot.metadata.networkScope with
  | .finalizedAnchor .. => some snapshot.metadata.networkScope
  | .genesisId _ => if reported = none then finalizedAnchorAlias snapshot else none

/-- The anchor that the source must serve. -/
def checkedAnchor (snapshot : CatalogSnapshot) (reported : Option Text) :
    Option CatalogBlockCheckpoint :=
  ((pendingTransition snapshot).map CatalogIdentityTransition.anchor).or
    ((anchorScope snapshot reported).bind finalizedAnchorCheckpoint)

/-- The latest checkpoint that the source must serve. -/
def checkedCheckpoint (snapshot : CatalogSnapshot) (reported : Option Text) :
    Option CatalogBlockCheckpoint :=
  (((pendingTransition snapshot).map CatalogIdentityTransition.checkpoint).or
    (latestCatalogCheckpoint snapshot)).or (checkedAnchor snapshot reported)

/-- The blocks that the source must serve: the anchor and the latest checkpoint. -/
def identityChecks (snapshot : CatalogSnapshot) (reported : Option Text) :
    List CatalogBlockCheckpoint :=
  let anchor := (checkedAnchor snapshot reported).toList
  anchor ++ (checkedCheckpoint snapshot reported).toList.filter fun checkpoint =>
    anchor.all (· ≠ checkpoint)

/-- Whether the genesis time of the source rules the catalog out. -/
def checkGenesisTime (source : CatalogL1Source) (scope : Option NetworkScope) :
    ZoneCatalogServiceResult (Option CatalogCandidateActivation) :=
  match scope with
  | none => pure none
  | some scope => do
    let time ← source.timeStatus.mapError mapSourceError
    if finalizedAnchorGenesisTime scope ≠ some (Text.ofInt time.genesisTimeUnixMs) then
      pure (some (.mismatch "source genesis time does not match catalog anchor"))
    else pure none

/-- Whether the blocks that the source serves rule the catalog out. -/
def checkServedBlocks (source : CatalogL1Source) (lib : CatalogBlockReference) :
    List CatalogBlockCheckpoint → ZoneCatalogServiceResult (Option CatalogCandidateActivation)
  | [] => pure none
  | expected :: rest =>
    if lib.slot = expected.slot ∧ lib.blockId ≠ expected.blockId then
      pure (some (.mismatch ("source LIB conflicts with catalog checkpoint at slot " ++
        toString expected.slot)))
    else do
      let actual ← (source.block expected.blockId).mapError mapSourceError
      match actual with
      | none => pure (some (.cachedUnverified
          ("source cannot return catalog checkpoint at slot " ++ toString expected.slot)))
      | some actual =>
        if actual.checkpoint ≠ expected then
          pure (some (.mismatch ("source block conflicts with catalog checkpoint at slot " ++
            toString expected.slot)))
        else checkServedBlocks source lib rest

/-- The change of identity that a verified source makes possible. -/
def identityPromotion (snapshot : CatalogSnapshot) (reported : Option Text) :
    ZoneCatalogServiceResult CatalogCandidateActivation :=
  match snapshot.metadata.networkScope, reported with
  | .finalizedAnchor .., some genesisId => do
    let anchor ← required (checkedAnchor snapshot reported)
      (.invalidState "provisional catalog has no finalized anchor")
    let checkpoint := (checkedCheckpoint snapshot reported).getD anchor
    let promotion : CatalogIdentityPromotion :=
      { oldScope := snapshot.metadata.networkScope
        newScope := .genesisId genesisId
        anchor := anchor
        checkpoint := checkpoint
        assurance := promotionAssurance snapshot (.genesisId genesisId) checkpoint }
    if ∃ transition ∈ pendingTransition snapshot,
        ¬ transitionMatchesPromotion transition promotion = true then
      pure (.mismatch "pending identity transition conflicts with current source")
    else pure (.verified (some promotion))
  | _, _ => pure (.verified none)

/-- **Verify** that a source serves the chain of a catalog. -/
def verifyCatalogCandidate (source : CatalogL1Source) (snapshot : CatalogSnapshot)
    (context : ZoneCatalogRunContext) : ZoneCatalogServiceResult CatalogCandidateActivation := do
  context.ensureCurrent
  let status ← source.chainStatus.mapError mapSourceError
  let lib := status.snapshot.lib
  match checkReportedGenesis snapshot status.genesisId with
  | some activation => pure activation
  | none =>
    let checks := identityChecks snapshot status.genesisId
    match (checks.map CatalogBlockCheckpoint.slot).max? with
    | some requiredSlot =>
      if lib.slot < requiredSlot then pure (.sourceBehind lib.slot requiredSlot)
      else verifyAnchored lib checks status.genesisId
    | none => verifyAnchored lib checks status.genesisId
where
  /-- The part that asks the source for its time and its blocks. -/
  verifyAnchored (lib : CatalogBlockReference) (checks : List CatalogBlockCheckpoint)
      (reported : Option Text) : ZoneCatalogServiceResult CatalogCandidateActivation := do
    match ← checkGenesisTime source (anchorScope snapshot reported) with
    | some activation => pure activation
    | none =>
      match ← checkServedBlocks source lib checks with
      | some activation => pure activation
      | none => identityPromotion snapshot reported

/-! ### Repairing -/

/-- A repair goes on only if the source serves the chain of the catalog, under the identity it
has. -/
def requireVerified : CatalogCandidateActivation → ZoneCatalogServiceResult Unit
  | .verified none => pure ()
  | .verified (some _) =>
    throw (.worker "catalog identity strengthened during ancestry repair; retry required")
  | _ => throw (.worker "catalog identity or checkpoint changed during ancestry repair")

/-- Confirm that the source serves the chain of the catalog, for a repair. -/
def confirmCurrentCatalog (source : CatalogL1Source) (snapshot : CatalogSnapshot)
    (lowerCheckpoint : Option CatalogBlockReference) (context : ZoneCatalogRunContext) :
    ZoneCatalogServiceResult CatalogRepairConfirmation := do
  let activation ← verifyCatalogCandidate source snapshot context
  requireVerified activation
  let target ← required (targetLib snapshot) (.worker "catalog repair has no fixed target LIB")
  pure ⟨target, lowerCheckpoint, latestCatalogCheckpoint snapshot⟩

/-- Commit a batch, on top of the catalog the worker holds. -/
def commitCatalogBatch (persisted snapshot : CatalogSnapshot) (batch : CatalogBatch)
    (context : ZoneCatalogRunContext) :
    CatalogSnapshot × ZoneCatalogServiceResult CatalogSnapshot :=
  match context.ensureCurrent with
  | .error error => (persisted, .error error)
  | .ok () =>
    ((commitBatchFromSnapshot persisted snapshot batch).1,
      (commitBatchFromSnapshot persisted snapshot batch).2.mapError mapCatalogError)

/-- The batch that repairs the prefix, if blocks of it were found. -/
def prefixRepairBatch (ext : Externals) (source : CatalogL1Source) (snapshot : CatalogSnapshot)
    (context : ZoneCatalogRunContext) : ZoneCatalogServiceResult (Option CatalogBatch) := do
  let request ← (catalogPrefixRepairRequest snapshot (engineContext context snapshot)).mapError
    mapEngineError
  let outcome ← (repairCatalogAncestry source.block request).mapError mapEngineError
  context.ensureCurrent
  let confirmation ← confirmCurrentCatalog source snapshot none context
  (reduceCatalogPrefixRepair ext snapshot outcome confirmation
    (engineContext context snapshot)).mapError mapEngineError

/-- The batch that repairs a gap. -/
def gapRepairBatch (ext : Externals) (source : CatalogL1Source) (snapshot : CatalogSnapshot)
    (gap : CoverageGap) (context : ZoneCatalogRunContext) :
    ZoneCatalogServiceResult CatalogBatch := do
  let request ← (catalogGapRepairRequest snapshot gap.gapId
    (engineContext context snapshot)).mapError mapEngineError
  let outcome ← (repairCatalogAncestry source.block request).mapError mapEngineError
  context.ensureCurrent
  let confirmation ← confirmCurrentCatalog source snapshot (some gap.lowerCheckpoint) context
  (reduceCatalogGapRepair ext snapshot gap.gapId outcome confirmation
    (engineContext context snapshot)).mapError mapEngineError

/-- **Repair** the prefix of a catalog, or else its first gap; `persisted` is what the store
holds, `snapshot` what the worker does. -/
def repairOneCatalogGap (ext : Externals) (source : CatalogL1Source)
    (persisted snapshot : CatalogSnapshot) (context : ZoneCatalogRunContext) :
    CatalogSnapshot × ZoneCatalogServiceResult CatalogSnapshot :=
  if ∃ frontier ∈ snapshot.frontier, frontier.prefixStatus = .unavailable then
    match prefixRepairBatch ext source snapshot context with
    | .error error => (persisted, .error error)
    | .ok none => (persisted, .ok snapshot)
    | .ok (some batch) => commitCatalogBatch persisted snapshot batch context
  else
    match snapshot.gaps.records.head? with
    | none => (persisted, .ok snapshot)
    | some gap =>
      match gapRepairBatch ext source snapshot gap context with
      | .error error => (persisted, .error error)
      | .ok batch => commitCatalogBatch persisted snapshot batch context

/-! ### The checkpoint of the frontier -/

/-- A block is the end of the lowest of some segments. -/
def LowestEnd (segments : SegmentTable) (c : CatalogBlockReference) : Prop :=
  ∃ a ∈ segments, a.frontier = c ∧ ∀ b ∈ segments, c.slot ≤ b.frontier.slot

/-- **The checkpoint of the frontier is the end of the lowest segment**, if there is any. -/
def CheckpointLowest (s : CatalogSnapshot) : Prop :=
  s.segments.records = [] ∨ ∃ checkpoint, latestCatalogCheckpoint s = some checkpoint ∧
    LowestEnd s.segments (blockReference checkpoint)

/-- The confirmations that a worker gives. -/
def WorkerConfirms (s : CatalogSnapshot) (confirmation : CatalogRepairConfirmation) : Prop :=
  confirmation.upperFrontierCheckpoint = latestCatalogCheckpoint s

/-- A block is determined by its id. -/
def IdsDetermineBlocks (served : Set CatalogL1Block) : Prop :=
  ∀ b ∈ served, ∀ b' ∈ served, b.checkpoint.blockId = b'.checkpoint.blockId → b = b'

variable {ext : Externals} {blocks : List CatalogL1Block} {s : CatalogSnapshot}
  {context : CatalogEngineContext}

section Checkpoint

variable {served : Set CatalogL1Block}
  {confirms : CatalogSnapshot → CatalogRepairConfirmation → Prop} {metadata : CatalogMetadata}
  {log : List CatalogL1Block} {s' : CatalogSnapshot} {f : CatalogFrontier}
  {target : CatalogBlockReference}

theorem latestCatalogCheckpoint_eq (h : s.frontier = some f) :
    latestCatalogCheckpoint s = f.checkpoint := by
  rw [latestCatalogCheckpoint, h, bind_some]

theorem Advances.checkpoint (h : Advances s context f target s') :
    latestCatalogCheckpoint s' = f.checkpoint := by
  rw [latestCatalogCheckpoint_eq h.frontier]
  rfl

variable {a : CoverageSegment}

variable {links : List Link} {gap : CoverageGap} {lower : CoverageSegment}

/-- The end of a segment is a block that was served. -/
theorem Topology.served_frontier (h : Topology ext served s links) (ha : a ∈ s.segments) :
    ∃ b ∈ served, blockReference b.checkpoint = a.frontier := by
  obtain ⟨l, hl, rfl⟩ := (h.segments a).1 ha
  obtain ⟨_, hends, hlast⟩ := h.covered l hl
  obtain ⟨b, hb, rfl⟩ := hends.last_mem
  exact ⟨b, h.served l hl b hb, hlast⟩

/-- Segments that end at the same slot are the same. -/
theorem CoverageTopology.eq_of_frontier_slot (h : CoverageTopology s) {b : CoverageSegment}
    (ha : a ∈ s.segments) (hb : b ∈ s.segments) (hslot : a.frontier.slot = b.frontier.slot) :
    a = b := by
  by_contra hne
  have hra := h.ranges a ha
  have hrb := h.ranges b hb
  rcases h.disjoint a ha b hb hne with hlt | hlt <;> omega

/-- The checkpoint stays when the lowest segment keeps its end, and the others are not below
it. -/
theorem CheckpointLowest.keep (h : CheckpointLowest s)
    (hcp : latestCatalogCheckpoint s' = latestCatalogCheckpoint s)
    (hnew : s.segments.records = [] → s'.segments.records = [])
    (hkept : ∀ a ∈ s.segments, (∀ b ∈ s.segments, a.frontier.slot ≤ b.frontier.slot) →
      ∃ a' ∈ s'.segments, a'.frontier = a.frontier)
    (habove : ∀ b ∈ s'.segments, ∃ a ∈ s.segments, a.frontier.slot ≤ b.frontier.slot) :
    CheckpointLowest s' := by
  rcases h with hempty | ⟨cp, hlate, a, ha, hend, hlow⟩
  · exact .inl (hnew hempty)
  · obtain ⟨a', ha', hend'⟩ := hkept a ha fun b hb => hend ▸ hlow b hb
    refine .inr ⟨cp, hcp.trans hlate, a', ha', hend'.trans hend, fun b hb => ?_⟩
    obtain ⟨x, hx, hle⟩ := habove b hb
    exact (hlow x hx).trans hle

variable {segment : CoverageSegment}

/-- Replacing a segment by one with the same id and the same end. -/
theorem CheckpointLowest.replace (h : CheckpointLowest s) {segment' : CoverageSegment}
    (hcp : latestCatalogCheckpoint s' = latestCatalogCheckpoint s)
    (hm : segment ∈ s.segments) (hseg : s'.segments = s.segments.insert segment')
    (hid : segment'.segmentId = segment.segmentId)
    (hf : segment'.frontier = segment.frontier) : CheckpointLowest s' := by
  refine h.keep hcp (fun hnil => ?_) (fun a ha _ => ?_) (fun b hb => ?_)
  · rw [← mem_records, hnil] at hm
    cases hm
  · rw [hseg]
    by_cases heq : a.segmentId = segment'.segmentId
    · obtain rfl := eq_of_key_eq ha hm (heq.trans hid)
      exact ⟨segment', mem_insert_self _ _, hf⟩
    · exact ⟨a, mem_insert.2 (.inr ⟨ha, heq⟩), rfl⟩
  · rw [hseg, mem_insert] at hb
    rcases hb with rfl | ⟨hb, -⟩
    · exact ⟨segment, hm, by rw [hf]⟩
    · exact ⟨b, hb, le_rfl⟩

variable {first last : CatalogBlockCheckpoint}

/-- A first segment. -/
theorem checkpointLowest_first (hcp : latestCatalogCheckpoint s' = some last)
    (hempty : s.segments.records = [])
    (hseg : s'.segments = s.segments.insert (chainSegment first last target)) :
    CheckpointLowest s' := by
  refine .inr ⟨last, hcp, chainSegment first last target, ?_, rfl, fun b hb => ?_⟩
  · rw [hseg]
    exact mem_insert_self _ _
  · rw [hseg, mem_insert, ← mem_records, hempty] at hb
    rcases hb with rfl | ⟨hb, -⟩
    · exact le_rfl
    · cases hb

variable {c : CatalogBlockReference}

/-- With gaps, the segment at the cursor is not the lowest. -/
theorem CoverageTopology.not_lowest (h : CoverageTopology s) (hgaps : s.gaps.records ≠ [])
    (hc : Catalog.cursor s = some c)
    (hlow : ∀ b ∈ s.segments, a.frontier.slot ≤ b.frontier.slot) :
    a.frontier ≠ c := by
  intro hend
  obtain ⟨gap, hgap⟩ := exists_mem_of_ne_nil _ hgaps
  obtain ⟨x, y, ⟨hx, hy, _, -⟩, -⟩ := h.joined gap hgap
  obtain ⟨_, _, _, hh⟩ := h.cursor c hc
  have hxa := hlow x hx
  have hyc := hh y hy
  have hry := h.ranges y hy
  rw [hend] at hxa
  omega

theorem checkpointLowest_extend (h : CheckpointLowest s) (hshape : CoverageTopology s)
    (he : Extends ext s blocks context s' segment first last target c f) : CheckpointLowest s' := by
  have hcp := he.advances.checkpoint
  have hend := he.active.ends
  have hrange := he.chain.range
  have habove := he.above
  have hlate : c.slot < last.slot := by omega
  split_ifs at hcp with hgaps
  · -- without gaps there is one segment, and the checkpoint moves with it
    refine .inr ⟨last, hcp, _, he.segments ▸ mem_insert_self _ _, rfl, fun b hb => ?_⟩
    rw [he.segments, mem_insert] at hb
    rcases hb with rfl | ⟨hb, hne⟩
    · exact le_rfl
    · have hsize := hshape.count
      rw [Table.size, hgaps, length_nil] at hsize
      have hpos := length_pos_of_mem hb
      obtain ⟨x, hx⟩ : ∃ x, s.segments.records = [x] := by
        rw [Table.size] at hsize
        exact length_eq_one_iff.1 (by omega)
      have hm := he.active.mem
      rw [← mem_records, hx, mem_singleton] at hb hm
      exact absurd (by rw [hb, hm]) hne
  · -- with gaps the lowest segment is another one
    refine h.keep (hcp.trans (latestCatalogCheckpoint_eq he.known).symm) (fun hnil => ?_)
      (fun a ha hlow => ⟨a, ?_, rfl⟩) (fun b hb => ?_)
    · have hm := he.active.mem
      rw [← mem_records, hnil] at hm
      cases hm
    · have hne := hshape.not_lowest hgaps he.start hlow
      rw [he.segments, mem_insert]
      refine .inr ⟨ha, fun heq => hne ?_⟩
      rw [eq_of_key_eq ha he.active.mem heq, hend]
    · rw [he.segments, mem_insert] at hb
      rcases hb with rfl | ⟨hb, -⟩
      · refine ⟨segment, he.active.mem, ?_⟩
        rw [hend]
        exact hlate.le
      · exact ⟨b, hb, le_rfl⟩

theorem checkpointLowest_openGap {reason : CoverageGapReason} (h : CheckpointLowest s)
    (hshape : CoverageTopology s)
    (he : OpensGap ext s blocks context s' segment first last target c f reason) :
    CheckpointLowest s' := by
  have hcp := he.advances.checkpoint.trans (latestCatalogCheckpoint_eq he.known).symm
  obtain ⟨x, hx, hend, -⟩ := hshape.cursor c he.start
  have hrange := he.chain.range
  have habove := he.above
  refine h.keep hcp (fun hnil => ?_) (fun a ha _ => ⟨a, ?_, rfl⟩) (fun b hb => ?_)
  · rw [← mem_records, hnil] at hx
    cases hx
  · rw [he.segments, mem_insert]
    exact .inr ⟨ha, he.fresh a ha⟩
  · rw [he.segments, mem_insert] at hb
    rcases hb with rfl | ⟨hb, -⟩
    · refine ⟨x, hx, ?_⟩
      change x.frontier.slot ≤ last.slot
      rw [hend]
      omega
    · exact ⟨b, hb, le_rfl⟩

variable {upper : CoverageSegment}

/-- Closing a gap: the checkpoint moves if, and only if, the lower segment is the lowest. -/
theorem checkpointLowest_merge
    {confirmed : CatalogBlockCheckpoint} {v : WorkingCatalog} (h : CheckpointLowest s)
    (hshape : CoverageTopology s)
    (hs : ∀ a ∈ s.segments, a.frontier.blockId = gap.lowerCheckpoint.blockId → a = lower)
    (hjoin : Adjacent s.segments lower upper) (hlower : gap.lowerCheckpoint = lower.frontier)
    (he : Merges ext confirms s blocks context s' gap lower upper confirmed target f v) :
    CheckpointLowest s' := by
  have hcp := he.advances.checkpoint
  have hknown := latestCatalogCheckpoint_eq he.known
  obtain ⟨-, -, hbelow, hbetween⟩ := hjoin
  have hrl := hshape.ranges lower he.lowerMem
  have hru := hshape.ranges upper he.upperMem
  have hne : lower.segmentId ≠ upper.segmentId := fun heq => by
    rw [eq_of_key_eq he.lowerMem he.upperMem heq] at hbelow
    omega
  have hm : ∀ x, x ∈ s'.segments → x.frontier = upper.frontier ∨
      x ∈ s.segments ∧ x ≠ lower ∧ x ≠ upper := by
    intro x hx
    rw [he.segments, mem_erase, mem_insert] at hx
    obtain ⟨rfl | ⟨hx, hxl⟩, hxu⟩ := hx
    · exact .inl rfl
    · exact .inr ⟨hx, fun heq => hxl (heq ▸ rfl), fun heq => hxu (heq ▸ rfl)⟩
  rcases h with hempty | ⟨cp, hlate, a, ha, hend, hlow⟩
  · have hm := he.lowerMem
    rw [← mem_records, hempty] at hm
    cases hm
  have hf : f.checkpoint = some cp := hknown.symm.trans hlate
  split_ifs at hcp with hid
  · -- the checkpoint is at the end of the lower segment, which therefore is the lowest
    obtain ⟨_, hcp', hid⟩ := hid
    obtain rfl := some_inj.1 (hf.symm.trans hcp')
    have hal : a = lower := hs a ha (by rw [hend]; exact hid)
    subst hal
    refine .inr ⟨confirmed, hcp, ⟨a.segmentId, a.floor, upper.frontier,
      upper.reachesTargetLib⟩, ?_, he.matched.symm, fun b hb => ?_⟩
    · rw [he.segments, mem_erase]
      exact ⟨mem_insert_self _ _, hne⟩
    · rw [he.matched]
      rcases hm b hb with hb | ⟨hb, hba, hbu⟩
      · rw [hb]
      · have hab := hlow b hb
        rw [← hend] at hab
        have hrb := hshape.ranges b hb
        have hd := hshape.disjoint b hb a ha hba
        have hd' := hshape.disjoint b hb upper he.upperMem hbu
        have hnot := hbetween b hb
        omega
  · -- otherwise the lowest segment is another one, and stays
    have hal : a ≠ lower := by
      rintro rfl
      refine hid ⟨cp, hf, ?_⟩
      rw [hlower, hend]
      rfl
    have hau : a ≠ upper := by
      rintro rfl
      have hle := hlow lower he.lowerMem
      rw [← hend] at hle
      omega
    refine .inr ⟨cp, hcp.trans hf, a, ?_, hend, fun b hb => ?_⟩
    · rw [he.segments, mem_erase, mem_insert]
      exact ⟨.inr ⟨ha, fun heq => hal (eq_of_key_eq ha he.lowerMem heq)⟩,
        fun heq => hau (eq_of_key_eq ha he.upperMem heq)⟩
    · rcases hm b hb with hb | ⟨hb, -, -⟩
      · rw [hb]
        exact hlow upper he.upperMem
      · exact hlow b hb

/-- The segments of a gap are adjacent. -/
theorem CoverageTopology.adjacent (h : CoverageTopology s) (hgap : gap ∈ s.gaps)
    (hlower : lower ∈ s.segments) (hupper : upper ∈ s.segments)
    (hlow : lower.segmentId = gap.lowerSegmentId)
    (hu : upper.segmentId = gap.upperSegmentId) :
    Adjacent s.segments lower upper ∧ gap.lowerCheckpoint = lower.frontier := by
  obtain ⟨_, _, ha, hjoin⟩ := h.joined gap hgap
  obtain rfl := eq_of_key_eq hlower ha.1 (hlow.trans hjoin.lowerId)
  obtain rfl := eq_of_key_eq hupper ha.2.1 (hu.trans hjoin.upperId)
  exact ⟨ha, hjoin.lowerCheckpoint⟩

/-- The lower segment of a gap is below the upper one, so the upper is not the lowest. -/
theorem CheckpointLowest.ne_upper (h : CheckpointLowest s) (hshape : CoverageTopology s)
    (hjoin : Adjacent s.segments lower upper)
    {cp : CatalogBlockCheckpoint} (hlate : latestCatalogCheckpoint s = some cp) :
    blockReference cp ≠ upper.frontier := by
  obtain ⟨hlower, hupper, _, -⟩ := hjoin
  intro heq
  rcases h with hempty | ⟨_, hlate', _, _, _, hlow⟩
  · rw [← mem_records, hempty] at hlower
    cases hlower
  · obtain rfl := some_inj.1 (hlate.symm.trans hlate')
    have hle := hlow lower hlower
    have hru := hshape.ranges upper hupper
    rw [heq] at hle
    omega

/-- **One step.** A worker closes no gap; otherwise ids tell the segments apart. -/
theorem Effect.checkpointLowest (h : CheckpointLowest s) (htop : Topology ext served s links)
    (hcon : (∀ s c, confirms s c → WorkerConfirms s c) ∨ IdsDetermineBlocks served)
    (he : Effect ext confirms s blocks context s') : CheckpointLowest s' := by
  have hs := htop.coverageTopology
  cases he with
  | retarget target he =>
    have hcp : latestCatalogCheckpoint s' = latestCatalogCheckpoint s := by
      rw [he.advances.checkpoint, latestCatalogCheckpoint]
      cases s.frontier <;> rfl
    refine h.keep hcp (fun hnil => ?_) (fun a ha _ => ?_) (fun b hb => ?_)
    · rw [he.segments]
      simp [Table.modifyAll, hnil]
    · exact ⟨retargetSegment target a, he.segments ▸ mem_modifyAll.2 ⟨a, ha, rfl⟩, rfl⟩
    · rw [he.segments, mem_modifyAll] at hb
      obtain ⟨a, ha, rfl⟩ := hb
      exact ⟨a, ha, le_rfl⟩
  | extend _ _ _ _ _ _ he => exact checkpointLowest_extend h hs he
  | start _ _ _ _ he | openPrefix _ _ _ _ he =>
    exact checkpointLowest_first he.advances.checkpoint he.noSegments he.segments
  | openGap _ _ _ _ _ _ _ he => exact checkpointLowest_openGap h hs he
  | repairPrefix _ _ _ _ _ _ he =>
    exact h.replace (he.advances.checkpoint.trans (latestCatalogCheckpoint_eq he.known).symm)
      he.mem he.segments rfl rfl
  | merge _ _ _ _ _ _ _ he =>
    obtain ⟨hjoin, hlow⟩ :=
      hs.adjacent he.gapMem he.lowerMem he.upperMem he.lowerId he.upperId
    rcases hcon with hw | hids
    · obtain ⟨confirmation, hgiven, hconfirmed⟩ := he.confirmation
      have hlate := (hw s confirmation hgiven).symm.trans hconfirmed
      exact absurd he.matched (h.ne_upper hs hjoin hlate)
    · refine checkpointLowest_merge h hs (fun a ha hid => ?_) hjoin hlow he
      obtain ⟨b, hb, hbend⟩ := htop.served_frontier ha
      obtain ⟨b', hb', hbend'⟩ := htop.served_frontier he.lowerMem
      rw [hlow, ← hbend, ← hbend'] at hid
      rw [hids b hb b' hb' hid] at hbend
      exact hs.eq_of_frontier_slot ha he.lowerMem (by rw [← hbend, hbend'])
  | shrink _ _ _ _ _ _ _ he =>
    exact h.replace (he.advances.checkpoint.trans (latestCatalogCheckpoint_eq he.known).symm)
      he.upperMem he.segments rfl rfl
  | backOff _ _ _ _ he =>
    refine h.keep (he.advances.checkpoint.trans (latestCatalogCheckpoint_eq he.known).symm)
      (fun hnil => he.segments ▸ hnil) (fun a ha _ => ⟨a, he.segments ▸ ha, rfl⟩)
      (fun b hb => ⟨b, he.segments ▸ hb, le_rfl⟩)

/-- **The checkpoint of the frontier is the end of the lowest segment**, in every catalog of a
run that a worker confirms, or in which ids determine blocks. -/
theorem Run.checkpoint_lowest (hash : NoCollisions ext served)
    (hcon : (∀ s c, confirms s c → WorkerConfirms s c) ∨ IdsDetermineBlocks served)
    (h : Run ext served confirms metadata log s) : CheckpointLowest s := by
  induction h with
  | new => exact .inl rfl
  | step hrun hstep ih =>
    obtain ⟨_, htop, -⟩ := hrun.topology hash
    obtain ⟨-, -, _, he⟩ := hstep.effect
    exact he.checkpointLowest ih htop hcon

end Checkpoint

/-! ### The search for the blocks of a gap -/

/-- **A source serves the blocks between a block and the parent of another**, which are
`blocks`. -/
structure ServesAncestry (ext : Externals) (block : BlockLookup) (lower : CatalogBlockReference)
    (upper : CatalogBlockCheckpoint) (blocks : List CatalogL1Block) : Prop where
  linked : IsBlockChain blocks
  hex : ∀ b ∈ blocks, HexCheckpoint b.checkpoint
  empty : blocks = [] → upper.parentId = lower.blockId
  bottom : ∀ b ∈ blocks.head?, lower.slot < b.checkpoint.slot ∧
    b.checkpoint.parentId = lower.blockId
  top : ∀ b ∈ blocks.getLast?, b.checkpoint.slot < upper.slot ∧
    upper.parentId = b.checkpoint.blockId
  served : ∀ b ∈ blocks, block b.checkpoint.blockId = .ok (some b)
  decodable : ∀ b ∈ blocks, Decodable ext b

variable {outcome : CatalogAncestryRepairOutcome}

section Search

variable {block : BlockLookup} {request : CatalogAncestryRepairRequest}
  {lower : CatalogBlockReference}

/-- A search through blocks that are all served does not stop before the lower boundary. -/
theorem repairAncestryFrom_ne_unresolved (hlow : request.lowerCheckpoint = some lower)
    {rest : List CatalogL1Block} (hlin : IsBlockChain rest)
    (hbottom : ∀ b ∈ rest.head?, b.checkpoint.parentId = lower.blockId)
    (hs : ∀ b ∈ rest, block b.checkpoint.blockId = .ok (some b)) {remaining : ℕ}
    (hr : rest.length ≤ remaining) {requestedId : Text}
    (hreq : requestedId = (rest.getLast?.map fun b => b.checkpoint.blockId).getD lower.blockId)
    {childSlot : ℕ} {recovered : List CatalogL1Block} {visited : List Text}
    (h : repairAncestryFrom block request remaining requestedId childSlot recovered visited =
      .ok outcome) : ∃ found, outcome = .connected found := by
  induction remaining generalizing rest requestedId childSlot recovered visited with
  | zero =>
    obtain rfl := length_eq_zero_iff.1 (Nat.le_zero.1 hr)
    rw [repairAncestryFrom, if_pos ⟨lower, hlow, hreq.symm⟩, pure_eq_ok] at h
    exact ⟨_, h.symm⟩
  | succ _ ih =>
    rw [repairAncestryFrom] at h
    split_ifs at h with hreached
    · rw [pure_eq_ok] at h
      exact ⟨_, h.symm⟩
    · rcases eq_nil_or_concat rest with rfl | ⟨front, b, rfl⟩
      · exact absurd ⟨lower, hlow, hreq.symm⟩ hreached
      rw [concat_eq_append] at hlin hbottom hs hr hreq
      rw [getLast?_concat] at hreq
      have hb : b ∈ front ++ [b] := by simp
      have hl : block requestedId = .ok (some b) := by
        rw [hreq]
        exact hs b hb
      simp only [bind_eq_ok, exists_unit, hl, hlow, reduceCtorEq, false_and, if_false] at h
      obtain ⟨-, -, -, -, -, h⟩ := h
      refine ih (isChain_append.1 hlin).1 (fun x hx => ?_)
        (fun x hx => hs x (mem_append_left _ hx)) ?_ ?_ h
      · refine hbottom x ?_
        rw [head?_append]
        rw [mem_def.1 hx, some_or]
        rfl
      · rw [length_append, length_singleton] at hr
        omega
      · -- the parent of the block found is the block before it, or the lower boundary
        rcases eq_nil_or_concat front with rfl | ⟨_, _, rfl⟩
        · exact hbottom b rfl
        · rw [concat_eq_append, append_assoc, singleton_append] at hlin
          rw [concat_eq_append, getLast?_concat]
          exact (isChain_append_cons_cons.1 hlin).2.1.2

end Search

/-! ### The worker closes no gap -/

variable {source : CatalogL1Source} {confirmation : CatalogRepairConfirmation}

/-- The confirmation of a worker. -/
theorem confirmCurrentCatalog_eq_ok
    {lower : Option CatalogBlockReference} {context : ZoneCatalogRunContext}
    (h : confirmCurrentCatalog source s lower context = .ok confirmation) :
    WorkerConfirms s confirmation := by
  simp only [confirmCurrentCatalog, bind_eq_ok, exists_unit, required_eq_ok, pure_eq_ok] at h
  obtain ⟨_, -, -, _, -, rfl⟩ := h
  rfl

/-- The engine does not close a gap if the checkpoint of the frontier is what is confirmed. -/
theorem reduceCatalogGapRepair_ne_ok {gapId : Text}
    {found : List CatalogL1Block}
    {batch : CatalogBatch} (h : CheckpointLowest s)
    (hshape : CoverageTopology s) (hcon : WorkerConfirms s confirmation) :
    reduceCatalogGapRepair ext s gapId (.connected found) confirmation context ≠ .ok batch := by
  intro hr
  obtain ⟨_, _, _, _, _, _, _, he⟩ :=
    reduceCatalogGapRepair_merges hcon hr
  obtain ⟨hjoin, -⟩ := hshape.adjacent he.gapMem he.lowerMem he.upperMem he.lowerId he.upperId
  obtain ⟨_, hcon', hconfirmed⟩ := he.confirmation
  exact h.ne_upper hshape hjoin (hcon'.symm.trans hconfirmed) he.matched

/-- A search for the blocks of a gap finds them, if the source serves them. -/
theorem repairCatalogAncestry_connected {gap : CoverageGap} {upper : CoverageSegment}
    {request : CatalogAncestryRepairRequest}
    (hgap : gap ∈ s.gaps) (hupper : upper ∈ s.segments)
    (hu : upper.segmentId = gap.upperSegmentId)
    (hlimit : blocks.length ≤ context.repairBlockLimit)
    (hs : ServesAncestry ext source.block gap.lowerCheckpoint upper.floor blocks)
    (hreq : catalogGapRepairRequest s gap.gapId context = .ok request)
    (h : repairCatalogAncestry source.block request = .ok outcome) :
    ∃ found, outcome = .connected found := by
  simp only [catalogGapRepairRequest, bind_eq_ok, exists_unit, required_eq_ok,
    find?_of_mem hgap, some_inj, pure_eq_ok] at hreq
  obtain ⟨-, _, rfl, _, hupper', rfl⟩ := hreq
  obtain ⟨hm, hid⟩ := find?_eq_some.1 hupper'
  obtain rfl := eq_of_key_eq hm hupper (hid.trans hu.symm)
  simp only [repairCatalogAncestry, bind_eq_ok, exists_unit] at h
  refine repairAncestryFrom_ne_unresolved rfl hs.linked
    (fun b hb => (hs.bottom b hb).2) hs.served hlimit ?_ h.2
  cases hlast : blocks.getLast? with
  | none => exact hs.empty (getLast?_eq_none_iff.1 hlast)
  | some last => exact (hs.top last hlast).2

/-- **A worker has all it needs to close the first gap** of a catalog: the prefix is read, the
source serves the chain of the catalog under its identity, and the blocks of the gap, which are
not too many. -/
structure Repairable (ext : Externals) (source : CatalogL1Source) (s : CatalogSnapshot)
    (context : ZoneCatalogRunContext) (gap : CoverageGap) : Prop where
  first : s.gaps.records.head? = some gap
  prefixRead : ∀ f ∈ s.frontier, f.prefixStatus ≠ .unavailable
  verified : verifyCatalogCandidate source s context = .ok (.verified none)
  served : ∃ upper ∈ s.segments, upper.segmentId = gap.upperSegmentId ∧
    ∃ blocks, blocks.length ≤ defaultCatalogRepairBlocks ∧
      ServesAncestry ext source.block gap.lowerCheckpoint upper.floor blocks

/-- **The worker closes no gap**: the repair of a gap whose blocks are all there fails, and the
store keeps the catalog as it was. -/
theorem repairOneCatalogGap_fails {ext : Externals} {served : Set CatalogL1Block}
    {confirms : CatalogSnapshot → CatalogRepairConfirmation → Prop} {metadata : CatalogMetadata}
    {log : List CatalogL1Block} {s : CatalogSnapshot} {source : CatalogL1Source}
    {context : ZoneCatalogRunContext} {gap : CoverageGap} (hash : NoCollisions ext served)
    (hconfirms : (∀ s c, confirms s c → WorkerConfirms s c) ∨ IdsDetermineBlocks served)
    (hrun : Run ext served confirms metadata log s) (h : Repairable ext source s context gap) :
    ∃ error, repairOneCatalogGap ext source s s context = (s, .error error) := by
  obtain ⟨_, htopology, -⟩ := hrun.topology hash
  have hlowest := hrun.checkpoint_lowest hash hconfirms
  have hgapMem : gap ∈ s.gaps := mem_of_head? h.first
  obtain ⟨_, hupper, hupperId, _, hlimit, hserves⟩ := h.served
  have hfails : ∀ batch, gapRepairBatch ext source s gap context ≠ .ok batch := by
    intro batch hbatch
    simp only [gapRepairBatch, bind_eq_ok, exists_unit, mapError_eq_ok] at hbatch
    obtain ⟨_, hrequest, _, hsearch, -, _, hconfirm, hreduce⟩ := hbatch
    obtain ⟨_, rfl⟩ := repairCatalogAncestry_connected hgapMem hupper hupperId hlimit hserves
      hrequest hsearch
    exact reduceCatalogGapRepair_ne_ok hlowest htopology.coverageTopology
      (confirmCurrentCatalog_eq_ok hconfirm) hreduce
  rw [repairOneCatalogGap, if_neg (by rintro ⟨f, hf, hstatus⟩; exact h.prefixRead f hf hstatus),
    h.first]
  cases hbatch : gapRepairBatch ext source s gap context with
  | error error => exact ⟨error, by simp only [hbatch]⟩
  | ok batch => exact absurd hbatch (hfails batch)

/-! ### A repair that fails -/

/-- A source of the sample chain that has the block at slot `4`. -/
def sampleSource : CatalogL1Source where
  chainStatus := .ok ⟨sampleSnapshot, some (sampleId '0')⟩
  timeStatus := .ok ⟨0⟩
  block id :=
    if id = sampleId '0' then .ok (some (sampleBlock 0 '0' 'f'))
    else if id = sampleId '4' then .ok (some (sampleBlock 4 '4' '0'))
    else .ok none

def sampleRunContext : ZoneCatalogRunContext := ⟨1, 1, false, 3⟩

/-- The error of an attempt, if it has failed. -/
def failureOf (attempt : CatalogSnapshot × ZoneCatalogServiceResult CatalogSnapshot) :
    Option ZoneCatalogServiceError :=
  match attempt.2 with
  | .ok _ => none
  | .error error => some error

theorem idsDetermineBlocks_of_list (h : (blocks.map fun b => b.checkpoint.blockId).Nodup) :
    IdsDetermineBlocks {b | b ∈ blocks} :=
  fun _ hb _ hb' => inj_on_of_nodup_map h hb hb'

/-- The block at slot `4` is all that is missing between the blocks at slots `0` and `5`. -/
theorem sampleSource_serves : ServesAncestry sampleExternals sampleSource.block
    ⟨0, sampleId '0'⟩ ⟨5, sampleId '5', sampleId '4'⟩ [sampleBlock 4 '4' '0'] := by
  refine ⟨isChain_singleton _, ?_, by simp, ?_, ?_, ?_, ?_⟩
  · simp only [mem_singleton, forall_eq, HexCheckpoint]
    decide
  · rintro _ ⟨⟩
    decide
  · rintro _ ⟨⟩
    decide
  all_goals simp only [mem_singleton, forall_eq]
  · rfl
  · exact ⟨[], rfl⟩

/-- The message of the failure. -/
def upperFrontierMismatch : ZoneCatalogServiceError :=
  .worker ("catalog ingestion validation failed: catalog L1 source is inconsistent: " ++
    "verified upper frontier does not match persisted segment")

/-- What holds of the sample catalog with a gap. -/
theorem sampleGap_repairable : ∃ log s gap,
    Run sampleExternals {b | b ∈ sampleGapRequests.flatMap Request.blocks} (fun _ _ => True)
      sampleMetadata log s ∧ Repairable sampleExternals sampleSource s sampleRunContext gap ∧
    failureOf (repairOneCatalogGap sampleExternals sampleSource s s sampleRunContext) =
      some upperFrontierMismatch := by
  obtain ⟨⟨log, s⟩, hreplay, hfacts⟩ : ∃ r,
      replay sampleExternals (newCatalog sampleMetadata) sampleGapRequests = some r ∧
        decide ((∃ gap ∈ r.2.gaps.records.head?, gap.lowerCheckpoint = ⟨0, sampleId '0'⟩ ∧
            ∃ upper ∈ r.2.segments.records, upper.segmentId = gap.upperSegmentId ∧
              upper.floor = ⟨5, sampleId '5', sampleId '4'⟩) ∧
          r.2.frontier.map CatalogFrontier.prefixStatus = some .complete ∧
          verifyCatalogCandidate sampleSource r.2 sampleRunContext = .ok (.verified none) ∧
          failureOf (repairOneCatalogGap sampleExternals sampleSource r.2 r.2 sampleRunContext) =
            some upperFrontierMismatch) = true :=
    map_eq_some_iff.1 (by decide +kernel)
  obtain ⟨⟨gap, hgap, hlow, upper, hupper, hid, hfloor⟩, hbelowFloor, hv, hfailure⟩ :=
    of_decide_eq_true hfacts
  have hrun : Run sampleExternals {b | b ∈ sampleGapRequests.flatMap Request.blocks}
      (fun _ _ => True) sampleMetadata ([] ++ log) s :=
    (Run.new (by decide)).replay (fun r hr b hb => mem_flatMap.2 ⟨r, hr, hb⟩)
      (fun _ _ => trivial) hreplay
  refine ⟨_, s, gap, hrun, ⟨hgap, fun f hf hs => ?_, hv, upper, hupper, hid,
    [sampleBlock 4 '4' '0'], by decide, ?_⟩, hfailure⟩
  · rw [mem_def.1 hf, map_some, hs] at hbelowFloor
    cases hbelowFloor
  · rw [hlow, hfloor]
    exact sampleSource_serves

/-- A repair of the sample catalog fails, though the missing block is there. -/
theorem repairOneCatalogGap_sampleFailure : ∃ log s gap,
    Run sampleExternals {b | b ∈ sampleGapRequests.flatMap Request.blocks} (fun _ _ => True)
      sampleMetadata log s ∧ Repairable sampleExternals sampleSource s sampleRunContext gap ∧
    (repairOneCatalogGap sampleExternals sampleSource s s sampleRunContext).2 =
      .error upperFrontierMismatch := by
  obtain ⟨log, s, gap, hrun, hrepairable, hfailure⟩ := sampleGap_repairable
  refine ⟨log, s, gap, hrun, hrepairable, ?_⟩
  unfold failureOf at hfailure
  split at hfailure
  · cases hfailure
  · next error herror => rw [herror, some_inj.1 hfailure]

theorem repairOneCatalogGap_fails_sample : ∃ log s gap error,
    Run sampleExternals {b | b ∈ sampleGapRequests.flatMap Request.blocks} (fun _ _ => True)
      sampleMetadata log s ∧ Repairable sampleExternals sampleSource s sampleRunContext gap ∧
    repairOneCatalogGap sampleExternals sampleSource s s sampleRunContext = (s, .error error) := by
  obtain ⟨log, s, gap, hrun, hrepairable, -⟩ := sampleGap_repairable
  obtain ⟨error, herror⟩ := repairOneCatalogGap_fails (noCollisions_of_list (by decide +kernel))
    (.inr (idsDetermineBlocks_of_list (by decide +kernel))) hrun hrepairable
  exact ⟨log, s, gap, error, hrun, hrepairable, herror⟩

end LogosInspector.Catalog
