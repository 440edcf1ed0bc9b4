import LogosInspector.Catalog.Incremental
import LogosInspector.Catalog.Worker

/-!
# Identity promotion

A catalog whose source does not report the id of its first block is known by an *anchor*, one of
its finalized blocks. When a source reports the id later, the catalog is *promoted* to it
(`apply_catalog_identity_promotion`). This takes three updates of the stored metadata, and
between the first two the settings that refer to the old identity are bound to the new one:

* `prepareIdentityPromotion` writes down what is going to happen, with the anchor and the
  checkpoint at which the source was verified,
* the rebinder changes the settings,
* `markIdentitySettingsRebound` notes that it did,
* `commitIdentityPromotion` changes the identity and keeps the old one as an alias.

An attempt can end after each of these, by an error or because the process ends, and is then made
again from what is stored (`PromotionSystem.step`). In between the engine commits batches, so that
the checkpoint of the catalog is another one when the promotion is computed again. It still is
the same promotion, because `verify_catalog_candidate` takes its boundaries from the transition
that is under way (`identityPromotion_of_pending`).
-/

namespace LogosInspector.Catalog

/-! ### Updates of the metadata -/

/-- The metadata under the next revision. -/
def CatalogMetadata.stamped (metadata : CatalogMetadata) (updatedAtUnix : ℕ) : CatalogMetadata :=
  { metadata with
    catalogRevision := metadata.catalogRevision + 1
    updatedAtUnix := updatedAtUnix }

/-- A transaction that updates the metadata of a catalog: the content it leaves. An update that
changes nothing is not committed. -/
def updateTransaction (persisted : CatalogSnapshot) (expectedCatalogRevision updatedAtUnix : ℕ)
    (update : CatalogMetadata → CatalogResult CatalogMetadata) : CatalogResult CatalogSnapshot := do
  let previous := persisted.metadata
  validatePersisted (validateMetadata previous) "catalog metadata"
  reject (previous.catalogRevision ≠ expectedCatalogRevision)
    (.revisionConflict expectedCatalogRevision previous.catalogRevision)
  invalid (updatedAtUnix < previous.updatedAtUnix) "catalog update time moves backwards"
  let metadata ← update previous
  if metadata = previous then
    (readSnapshot persisted).mapError mapStagedError
  else do
    invalid (metadata.catalogRevision ≠ previous.catalogRevision
        ∨ metadata.createdAtUnix ≠ previous.createdAtUnix
        ∨ metadata.catalogFileId ≠ previous.catalogFileId)
      "metadata update changed store-owned fields"
    invalid (2 ^ 64 ≤ metadata.catalogRevision + 1) "catalog revision exhausted"
    let next := metadata.stamped updatedAtUnix
    validateMetadata next
    (readSnapshot { persisted with metadata := next }).mapError mapStagedError

/-- The content of the database after an update, and its outcome. -/
def updateMetadata (persisted : CatalogSnapshot) (expectedCatalogRevision updatedAtUnix : ℕ)
    (update : CatalogMetadata → CatalogResult CatalogMetadata) :
    CatalogSnapshot × CatalogResult CatalogSnapshot :=
  match updateTransaction persisted expectedCatalogRevision updatedAtUnix update with
  | .ok snapshot => (snapshot, .ok snapshot)
  | .error error => (persisted, .error error)

/-- The transition that a promotion begins with. -/
def preparedTransition (promotion : CatalogIdentityPromotion)
    (sourceRevision updatedAtUnix : ℕ) : CatalogIdentityTransition where
  oldScope := promotion.oldScope
  newScope := promotion.newScope
  anchor := promotion.anchor
  checkpoint := promotion.checkpoint
  sourceRevision := sourceRevision
  stage := .prepared
  preparedAtUnix := updatedAtUnix

/-- The metadata with a promotion prepared. -/
def CatalogMetadata.prepared (metadata : CatalogMetadata) (promotion : CatalogIdentityPromotion)
    (sourceRevision updatedAtUnix : ℕ) : CatalogMetadata :=
  { metadata with
    identityTransition := some (preparedTransition promotion sourceRevision updatedAtUnix) }

def prepareTransition (promotion : CatalogIdentityPromotion) (sourceRevision updatedAtUnix : ℕ)
    (metadata : CatalogMetadata) : CatalogResult CatalogMetadata :=
  match metadata.identityTransition with
  | some existing =>
    if transitionMatchesPromotion existing promotion then pure metadata
    else throw (.invalidInput "catalog has another identity transition")
  | none => do
    invalid (metadata.networkScope ≠ promotion.oldScope)
      "catalog canonical scope changed before promotion"
    pure (metadata.prepared promotion sourceRevision updatedAtUnix)

/-- The stored transition, which must be that of the promotion. -/
def matchingTransition (promotion : CatalogIdentityPromotion) (metadata : CatalogMetadata) :
    CatalogResult CatalogIdentityTransition := do
  let transition ← required metadata.identityTransition
    (.invalidInput "catalog identity transition is missing")
  invalid (transitionMatchesPromotion transition promotion = false)
    "catalog identity transition boundaries changed"
  pure transition

/-- The metadata with the settings rebound. -/
def CatalogMetadata.rebound (metadata : CatalogMetadata) (transition : CatalogIdentityTransition) :
    CatalogMetadata :=
  { metadata with identityTransition := some { transition with stage := .settingsRebound } }

def reboundTransition (promotion : CatalogIdentityPromotion) (metadata : CatalogMetadata) :
    CatalogResult CatalogMetadata := do
  let transition ← matchingTransition promotion metadata
  match transition.stage with
  | .prepared => pure (metadata.rebound transition)
  | .settingsRebound | .committed => pure metadata

/-- The aliases with a scope that is one of them from now on. -/
def withAlias (aliases : List NetworkIdentityAlias) (scope : NetworkScope) (updatedAtUnix : ℕ) :
    List NetworkIdentityAlias :=
  if aliases.any (·.networkScope = scope) then aliases else aliases ++ [⟨scope, updatedAtUnix⟩]

/-- The metadata with a promotion committed. -/
def CatalogMetadata.committed (metadata : CatalogMetadata) (transition : CatalogIdentityTransition)
    (promotion : CatalogIdentityPromotion) (updatedAtUnix : ℕ) : CatalogMetadata :=
  { metadata with
    identityTransition := some { transition with stage := .committed }
    networkScope := promotion.newScope
    identityAssurance := promotion.assurance
    identityAliases := withAlias metadata.identityAliases promotion.oldScope updatedAtUnix }

def commitTransition (promotion : CatalogIdentityPromotion) (updatedAtUnix : ℕ)
    (metadata : CatalogMetadata) : CatalogResult CatalogMetadata := do
  let transition ← matchingTransition promotion metadata
  match transition.stage with
  | .prepared => throw (.invalidInput "catalog source settings are not rebound")
  | .settingsRebound => pure (metadata.committed transition promotion updatedAtUnix)
  | .committed => pure metadata

def prepareIdentityPromotion (persisted : CatalogSnapshot)
    (expectedCatalogRevision updatedAtUnix sourceRevision : ℕ)
    (promotion : CatalogIdentityPromotion) : CatalogSnapshot × CatalogResult CatalogSnapshot :=
  updateMetadata persisted expectedCatalogRevision updatedAtUnix
    (prepareTransition promotion sourceRevision updatedAtUnix)

def markIdentitySettingsRebound (persisted : CatalogSnapshot)
    (expectedCatalogRevision updatedAtUnix : ℕ) (promotion : CatalogIdentityPromotion) :
    CatalogSnapshot × CatalogResult CatalogSnapshot :=
  updateMetadata persisted expectedCatalogRevision updatedAtUnix (reboundTransition promotion)

def commitIdentityPromotion (persisted : CatalogSnapshot)
    (expectedCatalogRevision updatedAtUnix : ℕ) (promotion : CatalogIdentityPromotion) :
    CatalogSnapshot × CatalogResult CatalogSnapshot :=
  updateMetadata persisted expectedCatalogRevision updatedAtUnix
    (commitTransition promotion updatedAtUnix)

/-! ### Attempts -/

/-- An attempt to apply a promotion, between two of its steps. -/
structure PromotionAttempt where
  promotion : CatalogIdentityPromotion
  /-- The revision of the run that makes the attempt. -/
  sourceRevision : ℕ
  updatedAtUnix : ℕ
  /-- The catalog as the attempt has seen it last. -/
  held : Option CatalogSnapshot := none
  /-- Whether the rebinder has succeeded, and this is not stored yet. -/
  rebound : Bool := false

/-- A stored catalog and the attempts to promote it. -/
structure PromotionSystem where
  persisted : CatalogSnapshot
  /-- Everything that was stored so far. -/
  stored : List CatalogSnapshot
  /-- The scopes for which the rebinder has succeeded so far. -/
  rebinds : List (NetworkScope × NetworkScope) := []
  attempt : Option PromotionAttempt := none
  outcomes : List (ZoneCatalogServiceResult CatalogSnapshot) := []

/-- What the rebinder answers for an old and a new scope. -/
abbrev CatalogIdentityRebinder := NetworkScope → NetworkScope → ZoneCatalogServiceResult Unit

namespace PromotionSystem

/-- The attempt returns. -/
def finish (system : PromotionSystem) (outcome : ZoneCatalogServiceResult CatalogSnapshot) :
    PromotionSystem :=
  { system with attempt := none, outcomes := system.outcomes ++ [outcome] }

/-- The attempt updates the store, and goes on with the catalog it gets back. -/
def update (system : PromotionSystem) (attempt : PromotionAttempt)
    (result : CatalogSnapshot × CatalogResult CatalogSnapshot) : PromotionSystem :=
  let system := { system with persisted := result.1, stored := system.stored ++ [result.1] }
  match result.2 with
  | .ok snapshot =>
    { system with attempt := some { attempt with held := some snapshot, rebound := false } }
  | .error error => system.finish (.error (mapCatalogError error))

/-- The end of the loop: the catalog is committed, to this promotion or to another one. -/
def committedOutcome (promotion : CatalogIdentityPromotion) (snapshot : CatalogSnapshot) :
    ZoneCatalogServiceResult CatalogSnapshot :=
  if snapshot.metadata.networkScope ≠ promotion.newScope
      ∨ ¬ snapshot.metadata.identityTransition.any (transitionMatchesPromotion · promotion) then
    .error (.invalidState "committed identity transition has wrong scope or boundaries")
  else .ok snapshot

/-- The next step of an attempt, by the stage in the catalog that it holds. -/
def advanceHeld (system : PromotionSystem) (attempt : PromotionAttempt) (held : CatalogSnapshot)
    (rebinder : CatalogIdentityRebinder) : PromotionSystem :=
  let revision := held.metadata.catalogRevision
  match held.metadata.identityTransition.map CatalogIdentityTransition.stage with
  | none =>
    system.update attempt (prepareIdentityPromotion system.persisted revision
      attempt.updatedAtUnix attempt.sourceRevision attempt.promotion)
  | some .prepared =>
    if attempt.rebound then
      system.update attempt (markIdentitySettingsRebound system.persisted revision
        attempt.updatedAtUnix attempt.promotion)
    else
      match rebinder attempt.promotion.oldScope attempt.promotion.newScope with
      | .error error => system.finish (.error error)
      | .ok () =>
        { system with
          rebinds := system.rebinds ++ [(attempt.promotion.oldScope, attempt.promotion.newScope)]
          attempt := some { attempt with rebound := true } }
  | some .settingsRebound =>
    system.update attempt (commitIdentityPromotion system.persisted revision
      attempt.updatedAtUnix attempt.promotion)
  | some .committed => system.finish (committedOutcome attempt.promotion held)

/-- The next step of an attempt. -/
def advance (system : PromotionSystem) (rebinder : CatalogIdentityRebinder) : PromotionSystem :=
  match system.attempt with
  | none => system
  | some attempt =>
    match attempt.held with
    | none =>
      match readSnapshot system.persisted with
      | .ok snapshot => { system with attempt := some { attempt with held := some snapshot } }
      | .error error => system.finish (.error (mapCatalogError error))
    | some held => system.advanceHeld attempt held rebinder

/-- Begin an attempt for a promotion. -/
def start (system : PromotionSystem) (promotion : CatalogIdentityPromotion)
    (context : ZoneCatalogRunContext) (updatedAtUnix : ℕ) : PromotionSystem :=
  { system with attempt := some ⟨promotion, context.sourceRevision, updatedAtUnix, none, false⟩ }

end PromotionSystem

/-- What can happen to a stored catalog. -/
inductive PromotionStep
  /-- A batch is committed. -/
  | commit (batch : CatalogBatch)
  /-- A source is verified for what was stored at some time, and an attempt begins for the
  promotion that comes of it. -/
  | start (source : CatalogL1Source) (verified : ℕ) (context : ZoneCatalogRunContext)
      (updatedAtUnix : ℕ)
  /-- The attempt takes its next step. -/
  | advance (rebinder : CatalogIdentityRebinder)
  /-- The attempt ends: the run is outdated, the database fails, or the process ends. -/
  | stop (error : Option ZoneCatalogServiceError)

namespace PromotionSystem

/-- The state after a step, if the step can be taken. -/
def step (system : PromotionSystem) : PromotionStep → Option PromotionSystem
  | .commit batch =>
    match commitBatch system.persisted batch with
    | (persisted, .ok _) =>
      some { system with persisted, stored := system.stored ++ [persisted] }
    | (_, .error _) => none
  | .start source verified context updatedAtUnix =>
    if system.attempt.isSome then none
    else
      match (system.stored[verified]?).map (verifyCatalogCandidate source · context) with
      | some (.ok (.verified (some promotion))) =>
        some (system.start promotion context updatedAtUnix)
      | _ => none
  | .advance rebinder =>
    if system.attempt.isSome then some (system.advance rebinder) else none
  | .stop error =>
    if system.attempt.isSome then
      some { system with
        attempt := none
        outcomes := system.outcomes ++ (error.map Except.error).toList }
    else none

/-- The state after some steps, if all of them can be taken. -/
def run (system : PromotionSystem) (steps : List PromotionStep) : Option PromotionSystem :=
  steps.foldlM step system

/-- A catalog that was stored just now. -/
def initial (persisted : CatalogSnapshot) : PromotionSystem where
  persisted := persisted
  stored := [persisted]

/-- The attempt goes on until it returns, for at most so many steps. -/
def drive (rebinder : CatalogIdentityRebinder) : ℕ → PromotionSystem → PromotionSystem
  | 0, system => system
  | fuel + 1, system =>
    match system.attempt with
    | none => system
    | some _ => drive rebinder fuel (system.advance rebinder)

end PromotionSystem

/-! ### What the check of the metadata checks -/

/-- What is checked of a transition. -/
@[mk_iff] structure TransitionOk (metadata : CatalogMetadata)
    (transition : CatalogIdentityTransition) : Prop where
  oldScope : validateNetworkScope transition.oldScope = .ok ()
  newScope : validateNetworkScope transition.newScope = .ok ()
  anchor : validateCheckpoint transition.anchor = .ok ()
  checkpoint : validateCheckpoint transition.checkpoint = .ok ()
  ofAnchor : transition.oldScope.isGenesisId = false
  toGenesis : transition.newScope.isGenesisId = true
  pending : transition.stage ≠ .committed → metadata.networkScope = transition.oldScope
  committed : transition.stage = .committed → metadata.networkScope = transition.newScope ∧
    transition.oldScope ∈ metadata.identityAliases.map NetworkIdentityAlias.networkScope

/-- What is checked of the metadata. -/
@[mk_iff] structure MetadataOk (metadata : CatalogMetadata) : Prop where
  fileId : IsLocalId metadata.catalogFileId
  scope : validateNetworkScope metadata.networkScope = .ok ()
  aliases : ∀ known ∈ metadata.identityAliases, validateNetworkScope known.networkScope = .ok () ∧
      known.networkScope ≠ metadata.networkScope
  distinct : (metadata.identityAliases.map NetworkIdentityAlias.networkScope).Nodup
  transition : ∀ transition ∈ metadata.identityTransition, TransitionOk metadata transition
  assurance : metadata.identityAssurance = .ancestryVerified →
    metadata.networkScope.isGenesisId = true

variable {metadata : CatalogMetadata} {transition : CatalogIdentityTransition}

theorem validateIdentityAliases_eq_ok {canonical : NetworkScope} {seen : List NetworkScope}
    {aliases : List NetworkIdentityAlias} :
    validateIdentityAliases canonical seen aliases = .ok () ↔
      (∀ known ∈ aliases, validateNetworkScope known.networkScope = .ok () ∧
        known.networkScope ≠ canonical ∧ known.networkScope ∉ seen) ∧
      (aliases.map NetworkIdentityAlias.networkScope).Nodup := by
  induction aliases generalizing seen with
  | nil => simp [validateIdentityAliases]
  | cons _ _ ih =>
    simp only [validateIdentityAliases, bind_eq_ok, exists_unit, invalid_eq_ok, ih,
      List.forall_mem_cons, List.map_cons, List.nodup_cons, List.mem_append, List.mem_singleton,
      not_or]
    constructor
    · rintro ⟨hv, hc, hseen, hrest, hnodup⟩
      refine ⟨⟨⟨hv, hc, hseen⟩, fun other ho => ?_⟩, fun hm => ?_, hnodup⟩
      · exact ⟨(hrest other ho).1, (hrest other ho).2.1, (hrest other ho).2.2.1⟩
      · obtain ⟨other, ho, heq⟩ := List.mem_map.1 hm
        exact (hrest other ho).2.2.2 heq
    · rintro ⟨⟨⟨hv, hc, hseen⟩, hrest⟩, hfresh, hnodup⟩
      refine ⟨hv, hc, hseen, fun other ho => ?_, hnodup⟩
      refine ⟨(hrest other ho).1, (hrest other ho).2.1, (hrest other ho).2.2, ?_⟩
      exact fun heq => hfresh (heq ▸ List.mem_map_of_mem ho)

theorem validateIdentityTransition_eq_ok : validateIdentityTransition metadata transition = .ok () ↔
      TransitionOk metadata transition := by
  rcases hst : transition.stage with _ | _ | _ <;>
    simp [transitionOk_iff, validateIdentityTransition, hst, and_assoc]

theorem validateMetadata_eq_ok : validateMetadata metadata = .ok () ↔ MetadataOk metadata := by
  simp only [validateMetadata, validateLocalId, bind_eq_ok, exists_unit, invalid_eq_ok, not_not,
    validateIdentityAliases_eq_ok, Option.forM_eq_forM, optionForM_eq_ok,
    validateIdentityTransition_eq_ok, List.not_mem_nil, not_false_eq_true, and_true, not_and,
    Bool.not_eq_false, metadataOk_iff, and_assoc]

/-! ### What an update does -/

variable {persisted snapshot : CatalogSnapshot} {expected updatedAtUnix sourceRevision : ℕ}
  {promotion : CatalogIdentityPromotion}

section Updates

variable {update : CatalogMetadata → CatalogResult CatalogMetadata} {next : CatalogMetadata}

/-- What an update that succeeds leaves: a valid catalog, with the updated metadata. -/
theorem updateTransaction_ok
    (h : updateTransaction persisted expected updatedAtUnix update = .ok snapshot) :
    MetadataOk persisted.metadata ∧ ValidSnapshot snapshot ∧
      ∃ next, update persisted.metadata = .ok next ∧
        (next = persisted.metadata ∧ snapshot = persisted ∨
          snapshot = { persisted with metadata := next.stamped updatedAtUnix }) := by
  simp only [updateTransaction, bind_eq_ok, exists_unit, validatePersisted_eq_ok, reject_eq_ok,
    invalid_eq_ok, validateMetadata_eq_ok] at h
  obtain ⟨hmet, -, -, next, hnext, h⟩ := h
  refine ⟨hmet, ?_⟩
  split_ifs at h with hs
  · simp only [mapError_eq_ok, readSnapshot, bind_eq_ok, exists_unit, validSnapshot_iff,
      pure_eq_ok] at h
    obtain ⟨hv, rfl⟩ := h
    exact ⟨hv, next, hnext, .inl ⟨hs, rfl⟩⟩
  · simp only [bind_eq_ok, exists_unit, invalid_eq_ok, mapError_eq_ok, readSnapshot,
      validSnapshot_iff, pure_eq_ok] at h
    obtain ⟨-, -, -, hv, rfl⟩ := h
    exact ⟨hv, next, hnext, .inr rfl⟩

/-- The check of a catalog sees the metadata only in its head. -/
theorem ValidSnapshot.withMetadata (h : ValidSnapshot persisted) (hmet : MetadataOk metadata)
    (htime : metadata.createdAtUnix ≤ metadata.updatedAtUnix) :
    ValidSnapshot { persisted with metadata := metadata } where
  head := ⟨validateMetadata_eq_ok.2 hmet, htime, h.head.frontierOk, h.head.traversalOk⟩
  segments := h.segments
  evidence := h.evidence
  counts := h.counts
  zones := h.zones
  known := h.known
  gaps := h.gaps

/-- An update of a valid catalog succeeds, if it is made on the revision that is stored, not
before the last one, and leads to valid metadata. -/
theorem updateTransaction_of (hv : ValidSnapshot persisted)
    (hrev : persisted.metadata.catalogRevision = expected)
    (htime : persisted.metadata.updatedAtUnix ≤ updatedAtUnix)
    (hu : update persisted.metadata = .ok next) (hch : next ≠ persisted.metadata)
    (hown : next.catalogRevision = persisted.metadata.catalogRevision ∧
      next.createdAtUnix = persisted.metadata.createdAtUnix ∧
      next.catalogFileId = persisted.metadata.catalogFileId)
    (he : persisted.metadata.catalogRevision + 1 < 2 ^ 64)
    (hok : MetadataOk (next.stamped updatedAtUnix)) :
    updateTransaction persisted expected updatedAtUnix update =
      .ok { persisted with metadata := next.stamped updatedAtUnix } := by
  have hstore := hv.withMetadata hok (hown.2.1.le.trans (hv.head.time.trans htime))
  simp only [updateTransaction, bind_eq_ok, exists_unit, validatePersisted_eq_ok, reject_eq_ok,
    invalid_eq_ok, validateMetadata_eq_ok]
  refine ⟨validateMetadata_eq_ok.1 hv.head.metadataOk, not_not.2 hrev, htime.not_gt, next, hu, ?_⟩
  rw [if_neg hch]
  simp only [bind_eq_ok, exists_unit, invalid_eq_ok, validateMetadata_eq_ok, mapError_eq_ok,
    readSnapshot, validSnapshot_iff, pure_eq_ok, not_or, not_not]
  exact ⟨hown, by omega, hok, hstore, trivial⟩

theorem prepareTransition_ok
    (h : prepareTransition promotion sourceRevision updatedAtUnix metadata = .ok next) :
    next = metadata ∨ metadata.identityTransition = none ∧
      metadata.networkScope = promotion.oldScope ∧
      next = metadata.prepared promotion sourceRevision updatedAtUnix := by
  rw [prepareTransition.eq_def] at h
  split at h
  · split_ifs at h
    exact .inl (pure_eq_ok.1 h).symm
  · rename_i hn
    simp only [bind_eq_ok, exists_unit, invalid_eq_ok, not_not, pure_eq_ok] at h
    exact .inr ⟨hn, h.1, h.2.symm⟩

theorem matchingTransition_eq_ok : matchingTransition promotion metadata = .ok transition ↔
      metadata.identityTransition = some transition ∧
        transitionMatchesPromotion transition promotion = true := by
  simp only [matchingTransition, bind_eq_ok, exists_unit, required_eq_ok, invalid_eq_ok,
    Bool.not_eq_false, pure_eq_ok]
  constructor
  · rintro ⟨_, hsome, hmatch, rfl⟩
    exact ⟨hsome, hmatch⟩
  · rintro ⟨hsome, hmatch⟩
    exact ⟨transition, hsome, hmatch, rfl⟩

theorem transitionMatchesPromotion_iff : transitionMatchesPromotion transition promotion = true ↔
      transition.oldScope = promotion.oldScope ∧ transition.newScope = promotion.newScope ∧
        transition.anchor = promotion.anchor ∧ transition.checkpoint = promotion.checkpoint := by
  rw [transitionMatchesPromotion, decide_eq_true_eq]

theorem reboundTransition_ok (h : reboundTransition promotion metadata = .ok next) :
    next = metadata ∨ ∃ transition, metadata.identityTransition = some transition ∧
      transitionMatchesPromotion transition promotion = true ∧ transition.stage = .prepared ∧
      next = metadata.rebound transition := by
  obtain ⟨transition, hmatching, h⟩ := bind_eq_ok.1 h
  obtain ⟨hsome, hmatch⟩ := matchingTransition_eq_ok.1 hmatching
  split at h
  · rename_i hst
    exact .inr ⟨transition, hsome, hmatch, hst, (pure_eq_ok.1 h).symm⟩
  · exact .inl (pure_eq_ok.1 h).symm
  · exact .inl (pure_eq_ok.1 h).symm

theorem commitTransition_ok (h : commitTransition promotion updatedAtUnix metadata = .ok next) :
    next = metadata ∨ ∃ transition, metadata.identityTransition = some transition ∧
      transitionMatchesPromotion transition promotion = true ∧
      transition.stage = .settingsRebound ∧
      next = metadata.committed transition promotion updatedAtUnix := by
  obtain ⟨transition, hmatching, h⟩ := bind_eq_ok.1 h
  obtain ⟨hsome, hmatch⟩ := matchingTransition_eq_ok.1 hmatching
  split at h
  · simp at h
  · rename_i hst
    exact .inr ⟨transition, hsome, hmatch, hst, (pure_eq_ok.1 h).symm⟩
  · exact .inl (pure_eq_ok.1 h).symm

theorem reboundTransition_of (hsome : metadata.identityTransition = some transition)
    (hmatch : transitionMatchesPromotion transition promotion = true)
    (hst : transition.stage = .prepared) :
    reboundTransition promotion metadata = .ok (metadata.rebound transition) := by
  refine bind_eq_ok.2 ⟨transition, matchingTransition_eq_ok.2 ⟨hsome, hmatch⟩, ?_⟩
  rw [hst]
  rfl

theorem commitTransition_of (hsome : metadata.identityTransition = some transition)
    (hmatch : transitionMatchesPromotion transition promotion = true)
    (hst : transition.stage = .settingsRebound) :
    commitTransition promotion updatedAtUnix metadata =
      .ok (metadata.committed transition promotion updatedAtUnix) := by
  refine bind_eq_ok.2 ⟨transition, matchingTransition_eq_ok.2 ⟨hsome, hmatch⟩, ?_⟩
  rw [hst]
  rfl

/-- Metadata with transitions at different stages are different. -/
theorem ne_of_stage {transition' : CatalogIdentityTransition}
    (h : metadata.identityTransition = some transition)
    (h' : next.identityTransition = some transition') (hst : transition'.stage ≠ transition.stage) :
    next ≠ metadata := by
  rintro rfl
  rw [h] at h'
  injection h' with h'
  exact hst (h' ▸ rfl)

end Updates

/-! ### How the stored identity moves -/

/-- The scopes that a catalog is known by are the same. -/
structure SameScopes (before after : CatalogMetadata) : Prop where
  scope : after.networkScope = before.networkScope
  aliases : after.identityAliases = before.identityAliases
  assurance : after.identityAssurance = before.identityAssurance

/-- **What a step does to the stored identity**, if the rebinder has succeeded for the scopes in
`rebinds` so far. The stage moves from nothing to prepared, on to settings rebound and to
committed; the scope changes in the last step only. -/
inductive Moves (rebinds : List (NetworkScope × NetworkScope)) (before after : CatalogMetadata) :
    Prop
  | keep (hscopes : SameScopes before after)
      (htransition : after.identityTransition = before.identityTransition)
  | prepare (transition : CatalogIdentityTransition) (hscopes : SameScopes before after)
      (hbefore : before.identityTransition = none)
      (hafter : after.identityTransition = some transition) (hstage : transition.stage = .prepared)
      (hold : before.networkScope = transition.oldScope)
  | rebound (transition : CatalogIdentityTransition) (hscopes : SameScopes before after)
      (hbefore : before.identityTransition = some transition)
      (hstage : transition.stage = .prepared)
      (hafter : after.identityTransition = some { transition with stage := .settingsRebound })
      (hrebind : (transition.oldScope, transition.newScope) ∈ rebinds)
  | commit (transition : CatalogIdentityTransition) (acceptedAtUnix : ℕ)
      (hbefore : before.identityTransition = some transition)
      (hstage : transition.stage = .settingsRebound)
      (hafter : after.identityTransition = some { transition with stage := .committed })
      (hrebind : (transition.oldScope, transition.newScope) ∈ rebinds)
      (hold : before.networkScope = transition.oldScope)
      (hnew : after.networkScope = transition.newScope)
      (haliases : after.identityAliases =
        before.identityAliases ++ [⟨transition.oldScope, acceptedAtUnix⟩])

/-- What is known of a stored catalog from the stage of its transition. -/
def Sequenced (rebinds : List (NetworkScope × NetworkScope)) (metadata : CatalogMetadata) : Prop :=
  match metadata.identityTransition with
  | none => metadata.identityAliases = []
  | some transition =>
    match transition.stage with
    | .prepared => metadata.identityAliases = []
    | .settingsRebound => metadata.identityAliases = [] ∧
        (transition.oldScope, transition.newScope) ∈ rebinds
    | .committed => (∃ acceptedAtUnix,
          metadata.identityAliases = [⟨transition.oldScope, acceptedAtUnix⟩]) ∧
        (transition.oldScope, transition.newScope) ∈ rebinds

section Moves

variable {rebinds : List (NetworkScope × NetworkScope)} {before after : CatalogMetadata}

theorem Moves.refl : Moves rebinds before before := .keep ⟨rfl, rfl, rfl⟩ rfl

section

variable (h : Sequenced rebinds before)

include h

theorem Sequenced.mono {later : List (NetworkScope × NetworkScope)}
    (hsub : rebinds ⊆ later) : Sequenced later before := by
  unfold Sequenced at h ⊢
  split at h
  · exact h
  · split at h
    · exact h
    · exact ⟨h.1, hsub h.2⟩
    · exact ⟨h.1, hsub h.2⟩

theorem Sequenced.of_pending (hsome : before.identityTransition = some transition)
    (hst : transition.stage ≠ .committed) :
    before.identityAliases = [] := by
  rw [Sequenced, hsome] at h
  rcases hcase : transition.stage with _ | _ | _ <;> simp only [hcase] at h hst
  · exact h
  · exact h.1
  · exact absurd rfl hst

theorem Sequenced.moves (hmove : Moves rebinds before after) :
    Sequenced rebinds after := by
  cases hmove with
  | keep hs htr =>
    rw [Sequenced, htr, hs.aliases]
    exact h
  | prepare _ hs hb ha hst =>
    rw [Sequenced, hb] at h
    simp only [Sequenced, ha, hst, hs.aliases]
    exact h
  | rebound _ hs hb hst ha hr =>
    simp only [Sequenced, ha, hs.aliases]
    exact ⟨h.of_pending hb (by simp [hst]), hr⟩
  | commit _ acceptedAtUnix hb hst ha hr _ _ halias =>
    have hn := h.of_pending hb (by simp [hst])
    simp only [Sequenced, ha, halias, hn, List.nil_append]
    exact ⟨⟨acceptedAtUnix, rfl⟩, hr⟩

end

theorem commitBatch_persisted {batch : CatalogBatch} (h : Committed persisted batch snapshot) :
    (commitBatch persisted batch).1 = snapshot := by
  rw [Committed, commitBatch, runTransaction_ok] at h
  obtain ⟨_, htx, hs⟩ := h
  simp only [commitTransaction, bind_eq_ok, pure_eq_ok, Prod.mk.injEq, mapError_eq_ok,
    readSnapshot] at htx
  obtain ⟨-, -, _, -, _, ⟨-, -, rfl⟩, rfl, rfl⟩ := htx
  exact hs

/-- A batch changes the revision and the time of the metadata, nothing else. -/
theorem moves_commit {batch : CatalogBatch} (h : Committed persisted batch snapshot) :
    Moves rebinds persisted.metadata snapshot.metadata := by
  obtain ⟨-, -, -, -, -, -, rfl⟩ := committed_iff.1 h
  exact .keep ⟨rfl, rfl, rfl⟩ rfl

theorem moves_prepare (h : updateTransaction persisted expected updatedAtUnix
      (prepareTransition promotion sourceRevision updatedAtUnix) = .ok snapshot) :
    Moves rebinds persisted.metadata snapshot.metadata := by
  obtain ⟨-, -, _, hu, hnext⟩ := updateTransaction_ok h
  rcases hnext with ⟨-, rfl⟩ | rfl
  · exact .refl
  · rcases prepareTransition_ok hu with rfl | ⟨hn, hold, rfl⟩
    · exact .keep ⟨rfl, rfl, rfl⟩ rfl
    · exact .prepare _ ⟨rfl, rfl, rfl⟩ hn rfl rfl hold

/-- The attempt marks the settings as rebound only after it has seen the rebinder succeed for
the scopes of its promotion, which are those of the stored transition. -/
theorem moves_rebound (h : updateTransaction persisted expected updatedAtUnix
      (reboundTransition promotion) = .ok snapshot)
    (hr : (promotion.oldScope, promotion.newScope) ∈ rebinds) :
    Moves rebinds persisted.metadata snapshot.metadata := by
  obtain ⟨-, -, _, hu, hnext⟩ := updateTransaction_ok h
  rcases hnext with ⟨-, rfl⟩ | rfl
  · exact .refl
  · rcases reboundTransition_ok hu with rfl | ⟨transition, hsome, hmatch, hst, rfl⟩
    · exact .keep ⟨rfl, rfl, rfl⟩ rfl
    · obtain ⟨hold, hnew, -, -⟩ := transitionMatchesPromotion_iff.1 hmatch
      exact .rebound transition ⟨rfl, rfl, rfl⟩ hsome hst rfl (hold ▸ hnew ▸ hr)

/-- While the transition is pending the old scope is that of the catalog, so it is no alias. -/
theorem MetadataOk.withAlias_eq (h : MetadataOk before)
    (hsome : before.identityTransition = some transition) (hst : transition.stage ≠ .committed) :
    withAlias before.identityAliases transition.oldScope updatedAtUnix =
      before.identityAliases ++ [⟨transition.oldScope, updatedAtUnix⟩] := by
  have hold := (h.transition transition hsome).pending hst
  rw [withAlias, if_neg]
  intro hany
  obtain ⟨known, hknown, heq⟩ := List.any_eq_true.1 hany
  rw [decide_eq_true_eq] at heq
  exact (h.aliases known hknown).2 (heq.trans hold.symm)

theorem moves_committed (h : updateTransaction persisted expected updatedAtUnix
      (commitTransition promotion updatedAtUnix) = .ok snapshot)
    (hseq : Sequenced rebinds persisted.metadata) :
    Moves rebinds persisted.metadata snapshot.metadata := by
  obtain ⟨hok, -, _, hu, hnext⟩ := updateTransaction_ok h
  rcases hnext with ⟨-, rfl⟩ | rfl
  · exact .refl
  · rcases commitTransition_ok hu with rfl | ⟨transition, hsome, hmatch, hst, rfl⟩
    · exact .keep ⟨rfl, rfl, rfl⟩ rfl
    · obtain ⟨hold, hnew, -, -⟩ := transitionMatchesPromotion_iff.1 hmatch
      have hp : transition.stage ≠ .committed := by simp [hst]
      have hr : (transition.oldScope, transition.newScope) ∈ rebinds := by
        simp only [Sequenced, hsome, hst] at hseq
        exact hseq.2
      refine .commit transition updatedAtUnix hsome hst rfl hr
        ((hok.transition transition hsome).pending hp) hnew.symm ?_
      show withAlias _ promotion.oldScope _ = _
      rw [← hold]
      exact hok.withAlias_eq hsome hp

end Moves

/-! ### Runs -/

/-- What holds of a catalog and the attempts to promote it at any time. -/
structure Orderly (system : PromotionSystem) : Prop where
  valid : ∀ snapshot ∈ system.stored, ValidSnapshot snapshot
  current : system.persisted ∈ system.stored
  sequenced : Sequenced system.rebinds system.persisted.metadata
  rebound : ∀ attempt, system.attempt = some attempt → attempt.rebound = true →
    (attempt.promotion.oldScope, attempt.promotion.newScope) ∈ system.rebinds

/-- What a step does. -/
structure Proceeds (system next : PromotionSystem) : Prop where
  orderly : Orderly next
  moves : Moves system.rebinds system.persisted.metadata next.persisted.metadata

variable {system : PromotionSystem} {attempt : PromotionAttempt}
  {rebinder : CatalogIdentityRebinder}

variable {change : CatalogMetadata → CatalogResult CatalogMetadata}

namespace PromotionSystem

variable {next : PromotionSystem}

section

variable (h : Orderly system)

include h

theorem persisted_valid : ValidSnapshot system.persisted :=
  h.valid _ h.current

/-- A step that leaves the store alone. -/
theorem proceeds_of_keeps (hp : next.persisted = system.persisted)
    (hstore : next.stored = system.stored) (hr : system.rebinds ⊆ next.rebinds)
    (ha : ∀ attempt, next.attempt = some attempt → attempt.rebound = true →
      (attempt.promotion.oldScope, attempt.promotion.newScope) ∈ next.rebinds) :
    Proceeds system next where
  orderly :=
    { valid := by rw [hstore]; exact h.valid
      current := by rw [hp, hstore]; exact h.current
      sequenced := by rw [hp]; exact h.sequenced.mono hr
      rebound := ha }
  moves := by rw [hp]; exact .refl

theorem proceeds_finish {outcome : ZoneCatalogServiceResult CatalogSnapshot} : Proceeds system
    (system.finish outcome) :=
  proceeds_of_keeps h rfl rfl (List.Subset.refl _) (by simp [finish])

/-- A step that stores a catalog. -/
theorem proceeds_of_stores (hv : ValidSnapshot persisted)
    (hmove : Moves system.rebinds system.persisted.metadata persisted.metadata)
    (hp : next.persisted = persisted) (hstore : next.stored = system.stored ++ [persisted])
    (hr : next.rebinds = system.rebinds)
    (ha : ∀ attempt, next.attempt = some attempt → attempt.rebound = true →
      (attempt.promotion.oldScope, attempt.promotion.newScope) ∈ system.rebinds) :
    Proceeds system next where
  orderly :=
    { valid := by
        rw [hstore]
        intro snapshot hs
        rcases List.mem_append.1 hs with hold | hnew
        · exact h.valid snapshot hold
        · exact List.mem_singleton.1 hnew ▸ hv
      current := by rw [hp, hstore]; simp
      sequenced := by rw [hp, hr]; exact h.sequenced.moves hmove
      rebound := by rw [hr]; exact ha }
  moves := by rw [hp]; exact hmove

theorem proceeds_update (hmove : ∀ snapshot,
      updateTransaction system.persisted expected updatedAtUnix change = .ok snapshot →
      Moves system.rebinds system.persisted.metadata snapshot.metadata) :
    Proceeds system (system.update attempt
      (updateMetadata system.persisted expected updatedAtUnix change)) := by
  rcases hres : updateTransaction system.persisted expected updatedAtUnix change with
    error | snapshot
  all_goals simp only [updateMetadata, hres]
  · exact proceeds_of_stores h (persisted_valid h) .refl rfl rfl rfl (by simp [update, finish])
  · refine proceeds_of_stores h (updateTransaction_ok hres).2.1 (hmove snapshot hres) rfl rfl
      rfl ?_
    rintro _ ⟨⟩ hr
    simp at hr

theorem proceeds_advanceHeld {held : CatalogSnapshot} (ha : system.attempt = some attempt) :
    Proceeds system (system.advanceHeld attempt held rebinder) := by
  rw [advanceHeld.eq_def]
  split
  · exact proceeds_update h fun snapshot hres => moves_prepare hres
  · split_ifs with hr
    · exact proceeds_update h fun snapshot hres =>
        moves_rebound hres (h.rebound attempt ha hr)
    · split
      · exact proceeds_finish h
      · refine proceeds_of_keeps h rfl rfl (List.subset_append_left _ _) ?_
        rintro _ ⟨⟩ -
        simp
  · exact proceeds_update h fun _ hres => moves_committed hres h.sequenced
  · exact proceeds_finish h

theorem proceeds_advance : Proceeds system (system.advance rebinder) := by
  rw [advance.eq_def]
  split
  · exact ⟨h, .refl⟩
  · rename_i attempt ha
    split
    · split
      · refine proceeds_of_keeps h rfl rfl (List.Subset.refl _) ?_
        rintro _ ⟨⟩ hr
        exact h.rebound attempt ha hr
      · exact proceeds_finish h
    · exact proceeds_advanceHeld h ha

theorem proceeds_step {taken : PromotionStep}
    (hstep : system.step taken = some next) : Proceeds system next := by
  cases taken with rw [step] at hstep
  | commit batch =>
    split at hstep
    · rename_i persisted snapshot hc
      injection hstep with hstep
      subst hstep
      have hcommitted : Committed system.persisted batch snapshot := by
        rw [Committed, hc]
      obtain ⟨-, -, -, -, -, hv, hs⟩ := committed_iff.1 hcommitted
      have hp : persisted = snapshot := by
        have := commitBatch_persisted hcommitted
        rwa [hc] at this
      subst hp
      exact proceeds_of_stores h (hs ▸ hv) (moves_commit hcommitted) rfl rfl rfl h.rebound
    · simp at hstep
  | start =>
    split_ifs at hstep
    split at hstep
    · injection hstep with hstep
      subst hstep
      refine proceeds_of_keeps h rfl rfl (List.Subset.refl _) ?_
      rintro _ ⟨⟩ hr
      simp at hr
    · simp at hstep
  | advance =>
    split_ifs at hstep
    injection hstep with hstep
    exact hstep ▸ proceeds_advance h
  | stop =>
    split_ifs at hstep
    injection hstep with hstep
    subst hstep
    exact proceeds_of_keeps h rfl rfl (List.Subset.refl _) (by simp)

theorem orderly_run {steps : List PromotionStep}
    (hrun : system.run steps = some next) : Orderly next := by
  induction steps generalizing system with
  | nil =>
    injection hrun with hrun
    exact hrun ▸ h
  | cons _ _ ih =>
    obtain ⟨_, hstep, hrest⟩ := Option.bind_eq_some_iff.1 hrun
    exact ih (proceeds_step h hstep).orderly hrest

end

/-- A catalog that has not been promoted. -/
theorem orderly_initial (hv : ValidSnapshot persisted)
    (htr : persisted.metadata.identityTransition = none)
    (halias : persisted.metadata.identityAliases = []) : Orderly (initial persisted) where
  valid := by simp [initial, hv]
  current := by simp [initial]
  sequenced := by
    rw [initial, Sequenced, htr]
    exact halias
  rebound := by simp [initial]

end PromotionSystem

/-! ### The promotion of a verified source -/

variable {source : CatalogL1Source} {context : ZoneCatalogRunContext}

section Verified

variable {reported : Option Text} {found : Option CatalogIdentityPromotion}

theorem checkReportedGenesis_ne_verified :
    checkReportedGenesis snapshot reported ≠ some (.verified found) := by
  intro h
  rcases Option.or_eq_some_iff.1 h with h | ⟨-, h⟩
  · obtain ⟨_, -, h⟩ := Option.bind_eq_some_iff.1 h
    split at h
    · split_ifs at h
      simp at h
    · simp at h
  · split at h
    · split_ifs at h
      simp at h
    · split_ifs at h
      simp at h
    · simp at h

theorem checkGenesisTime_ne_verified {scope : Option NetworkScope} :
    checkGenesisTime source scope ≠ .ok (some (.verified found)) := by
  intro h
  cases scope with
  | none => simp [checkGenesisTime] at h
  | some _ =>
    obtain ⟨_, -, h⟩ := bind_eq_ok.1 h
    split_ifs at h
    · simp at h
    · simp at h

theorem checkServedBlocks_ne_verified {lib : CatalogBlockReference}
    {checks : List CatalogBlockCheckpoint} :
    checkServedBlocks source lib checks ≠ .ok (some (.verified found)) := by
  induction checks with
  | nil => simp [checkServedBlocks]
  | cons _ _ ih =>
    intro h
    rw [checkServedBlocks] at h
    split_ifs at h
    · simp at h
    · obtain ⟨actual, -, h⟩ := bind_eq_ok.1 h
      cases actual with
      | none => simp at h
      | some _ =>
        simp only at h
        split_ifs at h
        · simp at h
        · exact ih h

/-- A source is verified by the last check, the one that computes the promotion. -/
theorem identityPromotion_of_verified
    (h : verifyCatalogCandidate source snapshot context = .ok (.verified found)) :
    ∃ status, source.chainStatus = .ok status ∧
      identityPromotion snapshot status.genesisId = .ok (.verified found) := by
  have ha : ∀ {lib checks reported},
      verifyCatalogCandidate.verifyAnchored source snapshot lib checks reported =
        .ok (.verified found) → identityPromotion snapshot reported = .ok (.verified found) := by
    intro _ _ _ h
    obtain ⟨time, htime, h⟩ := bind_eq_ok.1 h
    cases time with
    | some _ =>
      rw [pure_eq_ok] at h
      exact absurd (h ▸ htime) checkGenesisTime_ne_verified
    | none =>
      obtain ⟨served, hs, h⟩ := bind_eq_ok.1 h
      cases served with
      | some _ =>
        rw [pure_eq_ok] at h
        exact absurd (h ▸ hs) checkServedBlocks_ne_verified
      | none => exact h
  obtain ⟨-, -, h⟩ := bind_eq_ok.1 h
  obtain ⟨status, hstatus, h⟩ := bind_eq_ok.1 h
  refine ⟨status, mapError_eq_ok.1 hstatus, ?_⟩
  split at h
  · rename_i hact
    rw [pure_eq_ok] at h
    exact absurd (h ▸ hact) checkReportedGenesis_ne_verified
  · simp only at h
    split at h
    · split_ifs at h
      · simp at h
      · exact ha h
    · exact ha h

/-- What the promotion of a verified source is. -/
theorem identityPromotion_ok
    (h : identityPromotion snapshot reported = .ok (.verified (some promotion))) :
    promotion.oldScope = snapshot.metadata.networkScope ∧ promotion.oldScope.isGenesisId = false ∧
      (∃ genesisId, reported = some genesisId ∧ promotion.newScope = .genesisId genesisId) ∧
      checkedAnchor snapshot reported = some promotion.anchor ∧
      promotion.checkpoint = (checkedCheckpoint snapshot reported).getD promotion.anchor ∧
      ∀ transition ∈ pendingTransition snapshot,
        transitionMatchesPromotion transition promotion = true := by
  rw [identityPromotion.eq_def] at h
  split at h
  · rename_i genesisTime blockSlot blockId parentId genesisId hscope
    obtain ⟨_, ha, h⟩ := bind_eq_ok.1 h
    rw [required_eq_ok] at ha
    simp only at h
    split_ifs at h with hcon
    · simp at h
    rw [pure_eq_ok] at h
    injection h with h
    injection h with h
    subst h
    refine ⟨rfl, by rw [hscope]; rfl, ⟨genesisId, rfl, rfl⟩, ha, rfl, ?_⟩
    intro transition htr
    by_contra hmatch
    exact hcon ⟨transition, htr, hmatch⟩
  · simp at h

/-- **A promotion is not lost.** While a transition is pending, every source that is verified
leads to the promotion that the transition began with, whatever the catalog has come to. -/
theorem identityPromotion_of_pending
    (h : verifyCatalogCandidate source snapshot context = .ok (.verified (some promotion)))
    (hsome : snapshot.metadata.identityTransition = some transition)
    (hst : transition.stage ≠ .committed) :
    transitionMatchesPromotion transition promotion = true := by
  obtain ⟨_, -, hp⟩ := identityPromotion_of_verified h
  refine (identityPromotion_ok hp).2.2.2.2.2 transition ?_
  rw [pendingTransition, hsome]
  simp [hst]

end Verified

/-! ### Attempts that are not cut -/

/-- The attempt holds what is stored, and its time is not before the last update. -/
structure Holds (system : PromotionSystem) (attempt : PromotionAttempt) : Prop where
  running : system.attempt = some attempt
  held : attempt.held = some system.persisted
  valid : ValidSnapshot system.persisted
  time : system.persisted.metadata.updatedAtUnix ≤ attempt.updatedAtUnix

/-- **The end of a promotion**: the attempt has returned the stored catalog, which has the new
scope, the old one as its only alias, and a committed transition with the boundaries of the
promotion. -/
structure Promoted (promotion : CatalogIdentityPromotion) (updatedAtUnix : ℕ)
    (outcomes : List (ZoneCatalogServiceResult CatalogSnapshot)) (next : PromotionSystem) :
    Prop where
  returned : next.attempt = none
  outcome : next.outcomes = outcomes ++ [.ok next.persisted]
  scope : next.persisted.metadata.networkScope = promotion.newScope
  aliases : next.persisted.metadata.identityAliases = [⟨promotion.oldScope, updatedAtUnix⟩]
  transition : ∃ transition, next.persisted.metadata.identityTransition = some transition ∧
    transition.stage = .committed ∧ transitionMatchesPromotion transition promotion = true

section Metadata

variable (h : MetadataOk metadata)

include h

theorem MetadataOk.prepared (hscope : metadata.networkScope = promotion.oldScope)
    (hold : promotion.oldScope.isGenesisId = false)
    (hnew : promotion.newScope.isGenesisId = true)
    (hv : validateNetworkScope promotion.newScope = .ok ())
    (ha : validateCheckpoint promotion.anchor = .ok ())
    (hcp : validateCheckpoint promotion.checkpoint = .ok ()) :
    MetadataOk
      ((metadata.prepared promotion sourceRevision updatedAtUnix).stamped updatedAtUnix) where
  fileId := h.fileId
  scope := h.scope
  aliases := h.aliases
  distinct := h.distinct
  transition := by
    rintro _ ⟨⟩
    have hold' : validateNetworkScope promotion.oldScope = .ok () := hscope ▸ h.scope
    exact ⟨hold', hv, ha, hcp, hold, hnew, fun _ => hscope, nofun⟩
  assurance := h.assurance

theorem MetadataOk.rebound (hsome : metadata.identityTransition = some transition)
    (hst : transition.stage = .prepared) :
    MetadataOk ((metadata.rebound transition).stamped updatedAtUnix) where
  fileId := h.fileId
  scope := h.scope
  aliases := h.aliases
  distinct := h.distinct
  transition := by
    rintro _ ⟨⟩
    have ht := h.transition transition hsome
    exact ⟨ht.oldScope, ht.newScope, ht.anchor, ht.checkpoint, ht.ofAnchor, ht.toGenesis,
      fun _ => ht.pending (by simp [hst]), nofun⟩
  assurance := h.assurance

/-- An anchor is not a genesis id, so the alias is not the new scope. -/
theorem MetadataOk.committed (hsome : metadata.identityTransition = some transition)
    (hmatch : transitionMatchesPromotion transition promotion = true)
    (hn : metadata.identityAliases = []) :
    MetadataOk ((metadata.committed transition promotion updatedAtUnix).stamped updatedAtUnix) := by
  obtain ⟨hold, hnew, -, -⟩ := transitionMatchesPromotion_iff.1 hmatch
  have ht := h.transition transition hsome
  have halias : withAlias metadata.identityAliases promotion.oldScope updatedAtUnix =
      [⟨promotion.oldScope, updatedAtUnix⟩] := by
    rw [hn]
    rfl
  have hne : promotion.oldScope ≠ promotion.newScope := by
    intro heq
    have := ht.ofAnchor
    rw [hold, heq, ← hnew, ht.toGenesis] at this
    exact absurd this (by decide)
  rw [CatalogMetadata.committed, halias]
  refine ⟨h.fileId, hnew ▸ ht.newScope, ?_, List.nodup_singleton _, ?_,
    fun _ => hnew ▸ ht.toGenesis⟩
  · intro _ hknown
    rw [List.mem_singleton.1 hknown]
    exact ⟨hold ▸ ht.oldScope, hne⟩
  · rintro _ ⟨⟩
    refine ⟨ht.oldScope, ht.newScope, ht.anchor, ht.checkpoint, ht.ofAnchor, ht.toGenesis,
      fun hst => absurd rfl hst, fun _ => ⟨hnew.symm, ?_⟩⟩
    simp [CatalogMetadata.stamped, hold]

end Metadata

namespace PromotionSystem

section Completion

variable {fuel : ℕ}

theorem drive_succ (h : system.attempt = some attempt) :
    drive rebinder (fuel + 1) system = drive rebinder fuel (system.advance rebinder) := by
  rw [drive, h]

theorem drive_of_none (h : system.attempt = none) : drive rebinder fuel system = system := by
  cases fuel with
  | zero => rfl
  | succ _ => rw [drive, h]

theorem advance_of_holds (h : Holds system attempt) :
    system.advance rebinder = system.advanceHeld attempt system.persisted rebinder := by
  simp only [advance, h.running, h.held]

/-- The state after an update that succeeds. -/
def updated (system : PromotionSystem) (attempt : PromotionAttempt) (snapshot : CatalogSnapshot) :
    PromotionSystem :=
  { system with
    persisted := snapshot
    stored := system.stored ++ [snapshot]
    attempt := some { attempt with held := some snapshot, rebound := false } }

theorem update_of_ok
    (h : updateTransaction system.persisted expected updatedAtUnix change = .ok snapshot) :
    system.update attempt (updateMetadata system.persisted expected updatedAtUnix change) =
      system.updated attempt snapshot := by
  simp only [updateMetadata, h, update, updated]

theorem holds_updated (hv : ValidSnapshot snapshot)
    (htime : snapshot.metadata.updatedAtUnix ≤ attempt.updatedAtUnix) :
    Holds (system.updated attempt snapshot)
      { attempt with held := some snapshot, rebound := false } :=
  ⟨rfl, rfl, hv, htime⟩

section

variable (h : Holds system attempt)

include h

section

variable (hsome : system.persisted.metadata.identityTransition = some transition)
  (hmatch : transitionMatchesPromotion transition attempt.promotion = true)

include hsome hmatch

theorem promoted_of_committed (hst : transition.stage = .committed)
    (halias : system.persisted.metadata.identityAliases =
      [⟨attempt.promotion.oldScope, attempt.updatedAtUnix⟩]) :
    Promoted attempt.promotion attempt.updatedAtUnix system.outcomes
      (drive rebinder (fuel + 1) system) := by
  have hok := validateMetadata_eq_ok.1 h.valid.head.metadataOk
  have hscope : system.persisted.metadata.networkScope = attempt.promotion.newScope :=
    ((hok.transition transition hsome).committed hst).1.trans
      (transitionMatchesPromotion_iff.1 hmatch).2.1
  have hfin : system.advance rebinder = system.finish (.ok system.persisted) := by
    simp only [advance_of_holds h, advanceHeld, hsome, Option.map_some, hst, committedOutcome,
      hscope, Option.any_some, hmatch, ne_eq, not_true_eq_false, or_self, if_false]
  rw [drive_succ h.running, hfin, drive_of_none rfl]
  exact ⟨rfl, rfl, hscope, halias, transition, hsome, hst, hmatch⟩

variable (halias : system.persisted.metadata.identityAliases = [])

include halias

theorem promoted_of_settingsRebound (hst : transition.stage = .settingsRebound)
    (he : system.persisted.metadata.catalogRevision + 1 < 2 ^ 64) :
    Promoted attempt.promotion attempt.updatedAtUnix system.outcomes
      (drive rebinder (fuel + 2) system) := by
  have hok := validateMetadata_eq_ok.1 h.valid.head.metadataOk
  have hu := updateTransaction_of h.valid rfl h.time
    (commitTransition_of hsome hmatch hst) (ne_of_stage hsome rfl (by simp [hst]))
    ⟨rfl, rfl, rfl⟩ he (hok.committed hsome hmatch halias)
  have ha : system.advance rebinder = system.update attempt
      (updateMetadata system.persisted system.persisted.metadata.catalogRevision
        attempt.updatedAtUnix (commitTransition attempt.promotion attempt.updatedAtUnix)) := by
    simp only [advance_of_holds h, advanceHeld, hsome, Option.map_some, hst]
    rfl
  rw [drive_succ h.running, ha, update_of_ok hu]
  refine promoted_of_committed (holds_updated (updateTransaction_ok hu).2.1 le_rfl) rfl hmatch rfl
    ?_
  show withAlias system.persisted.metadata.identityAliases _ _ = _
  rw [halias]
  rfl

variable (hst : transition.stage = .prepared)

include hst

theorem promoted_of_rebound (hr : attempt.rebound = true)
    (he : system.persisted.metadata.catalogRevision + 2 < 2 ^ 64) :
    Promoted attempt.promotion attempt.updatedAtUnix system.outcomes
      (drive rebinder (fuel + 3) system) := by
  have hok := validateMetadata_eq_ok.1 h.valid.head.metadataOk
  have hu := updateTransaction_of h.valid rfl h.time
    (reboundTransition_of hsome hmatch hst) (ne_of_stage hsome rfl (by simp [hst]))
    ⟨rfl, rfl, rfl⟩ (by omega) (hok.rebound hsome hst)
  have ha : system.advance rebinder = system.update attempt
      (updateMetadata system.persisted system.persisted.metadata.catalogRevision
        attempt.updatedAtUnix (reboundTransition attempt.promotion)) := by
    simp only [advance_of_holds h, advanceHeld, hsome, Option.map_some, hst, hr, if_true]
    rfl
  rw [drive_succ h.running, ha, update_of_ok hu]
  exact promoted_of_settingsRebound (holds_updated (updateTransaction_ok hu).2.1 le_rfl) rfl
    hmatch halias rfl he

theorem promoted_of_prepared
    (hrebinder : rebinder attempt.promotion.oldScope attempt.promotion.newScope = .ok ())
    (he : system.persisted.metadata.catalogRevision + 2 < 2 ^ 64) :
    Promoted attempt.promotion attempt.updatedAtUnix system.outcomes
      (drive rebinder (fuel + 4) system) := by
  by_cases hr : attempt.rebound = true
  · exact promoted_of_rebound h hsome hmatch halias hst hr he
  · have ha : system.advance rebinder = { system with
        rebinds := system.rebinds ++ [(attempt.promotion.oldScope, attempt.promotion.newScope)]
        attempt := some { attempt with rebound := true } } := by
      simp only [advance_of_holds h, advanceHeld, hsome, Option.map_some, hst, hr, hrebinder]
      rfl
    rw [drive_succ h.running, ha]
    have hhold : Holds { system with
        rebinds := system.rebinds ++ [(attempt.promotion.oldScope, attempt.promotion.newScope)]
        attempt := some { attempt with rebound := true } } { attempt with rebound := true } :=
      ⟨rfl, h.held, h.valid, h.time⟩
    exact promoted_of_rebound hhold hsome hmatch halias hst rfl he

end

theorem promoted_of_unprepared
    (hr : rebinder attempt.promotion.oldScope attempt.promotion.newScope = .ok ())
    (hn : system.persisted.metadata.identityTransition = none)
    (halias : system.persisted.metadata.identityAliases = [])
    (hscope : system.persisted.metadata.networkScope = attempt.promotion.oldScope)
    (hok : MetadataOk ((system.persisted.metadata.prepared attempt.promotion
      attempt.sourceRevision attempt.updatedAtUnix).stamped attempt.updatedAtUnix))
    (he : system.persisted.metadata.catalogRevision + 3 < 2 ^ 64) :
    Promoted attempt.promotion attempt.updatedAtUnix system.outcomes
      (drive rebinder (fuel + 5) system) := by
  have hc : prepareTransition attempt.promotion attempt.sourceRevision attempt.updatedAtUnix
      system.persisted.metadata = .ok (system.persisted.metadata.prepared attempt.promotion
        attempt.sourceRevision attempt.updatedAtUnix) := by
    simp only [prepareTransition, hn, bind_eq_ok, exists_unit, invalid_eq_ok, not_not]
    exact ⟨hscope, rfl⟩
  have hch : system.persisted.metadata.prepared attempt.promotion attempt.sourceRevision
      attempt.updatedAtUnix ≠ system.persisted.metadata := by
    intro heq
    have := congrArg CatalogMetadata.identityTransition heq
    rw [hn] at this
    exact absurd this (by simp [CatalogMetadata.prepared])
  have hu := updateTransaction_of h.valid rfl h.time hc hch ⟨rfl, rfl, rfl⟩ (by omega) hok
  have ha : system.advance rebinder = system.update attempt
      (updateMetadata system.persisted system.persisted.metadata.catalogRevision
        attempt.updatedAtUnix (prepareTransition attempt.promotion attempt.sourceRevision
          attempt.updatedAtUnix)) := by
    simp only [advance_of_holds h, advanceHeld, hn, Option.map_none]
    rfl
  rw [drive_succ h.running, ha, update_of_ok hu]
  refine promoted_of_prepared (holds_updated (updateTransaction_ok hu).2.1 le_rfl) rfl ?_ halias
    rfl hr he
  exact transitionMatchesPromotion_iff.2 ⟨rfl, rfl, rfl, rfl⟩

end

/-- An attempt begins by reading the catalog. -/
theorem drive_start (promotion : CatalogIdentityPromotion) (context : ZoneCatalogRunContext)
    (rebinder : CatalogIdentityRebinder) (fuel : ℕ) (hv : ValidSnapshot system.persisted)
    (htime : system.persisted.metadata.updatedAtUnix ≤ updatedAtUnix) :
    ∃ next attempt, drive rebinder (fuel + 1) (system.start promotion context updatedAtUnix) =
        drive rebinder fuel next ∧ Holds next attempt ∧ attempt.promotion = promotion ∧
      attempt.sourceRevision = context.sourceRevision ∧ attempt.updatedAtUnix = updatedAtUnix ∧
      next.persisted = system.persisted ∧ next.outcomes = system.outcomes := by
  have hread : readSnapshot system.persisted = .ok system.persisted := by
    simp only [readSnapshot, bind_eq_ok, exists_unit, validSnapshot_iff, pure_eq_ok, and_true]
    exact hv
  refine ⟨{ system with attempt := some ⟨promotion, context.sourceRevision, updatedAtUnix,
    some system.persisted, false⟩ }, _, ?_, ⟨rfl, rfl, hv, htime⟩, rfl, rfl, rfl, rfl, rfl⟩
  rw [start, drive_succ rfl]
  simp only [advance, hread]

end Completion

variable {fuel : ℕ}

/-- **A pending promotion is completed** by the next attempt that is not cut and for which the
rebinder succeeds. -/
theorem promoted_of_pending (h : Orderly system)
    (hsome : system.persisted.metadata.identityTransition = some transition)
    (hst : transition.stage ≠ .committed)
    (hv : verifyCatalogCandidate source system.persisted context = .ok (.verified (some promotion)))
    (hr : rebinder promotion.oldScope promotion.newScope = .ok ())
    (htime : system.persisted.metadata.updatedAtUnix ≤ updatedAtUnix)
    (he : system.persisted.metadata.catalogRevision + 2 < 2 ^ 64) :
    Promoted promotion updatedAtUnix system.outcomes
      (drive rebinder (fuel + 5) (system.start promotion context updatedAtUnix)) := by
  have hmatch := identityPromotion_of_pending hv hsome hst
  have halias := h.sequenced.of_pending hsome hst
  obtain ⟨_, _, hdrive, hhold, rfl, -, rfl, hp, hout⟩ :=
    drive_start promotion context rebinder (fuel + 4) (persisted_valid h) htime
  rw [hdrive, ← hout]
  rw [← hp] at hsome halias he
  rcases hcase : transition.stage with _ | _ | _
  · exact promoted_of_prepared hhold hsome hmatch halias hcase hr he
  · exact promoted_of_settingsRebound hhold hsome hmatch halias hcase (by omega)
  · exact absurd hcase hst

/-- The boundaries of the promotion of a valid catalog are valid blocks. -/
theorem boundaries_valid {reported : Option Text}
    (hv : ValidSnapshot snapshot)
    (hn : snapshot.metadata.identityTransition = none)
    (h : identityPromotion snapshot reported = .ok (.verified (some promotion))) :
    validateCheckpoint promotion.anchor = .ok () ∧
      validateCheckpoint promotion.checkpoint = .ok () := by
  have hok := validateMetadata_eq_ok.1 hv.head.metadataOk
  obtain ⟨hold, hanchored, -, ha, hcp, -⟩ := identityPromotion_ok h
  have hp : pendingTransition snapshot = none := by rw [pendingTransition, hn]; rfl
  rw [hold] at hanchored
  -- Without a transition the anchor is the one of the scope ...
  have hanchorOk : validateCheckpoint promotion.anchor = .ok () := by
    have hscope := hok.scope
    rw [checkedAnchor, hp, Option.map_none, Option.none_or, anchorScope] at ha
    cases hcase : snapshot.metadata.networkScope with
    | genesisId => simp [hcase, NetworkScope.isGenesisId] at hanchored
    | finalizedAnchor =>
      rw [hcase] at ha hscope
      simp only [Option.bind_some, finalizedAnchorCheckpoint, Option.some.injEq] at ha
      simp only [validateNetworkScope, bind_eq_ok, exists_unit] at hscope
      rw [← ha]
      simp only [validateCheckpoint, validateHexId, bind_eq_ok, exists_unit, invalid_eq_ok]
        at hscope ⊢
      exact hscope.2
  -- ... and the checkpoint the one of the frontier, if there is one.
  refine ⟨hanchorOk, ?_⟩
  rw [hcp, checkedCheckpoint, hp, Option.map_none, Option.none_or, ha]
  cases hlate : latestCatalogCheckpoint snapshot with
  | none => exact hanchorOk
  | some cp =>
    obtain ⟨frontier, hf, hlate⟩ := Option.bind_eq_some_iff.1 hlate
    have := (hv.head.frontierOk frontier hf).checkpoint cp hlate
    rw [Option.some_or, Option.getD_some]
    simp only [validateCheckpoint, validateHexId, bind_eq_ok, exists_unit, invalid_eq_ok, not_not]
    exact this

/-- **A promotion is completed** by an attempt that is not cut and for which the rebinder
succeeds, if the reported genesis id is one. -/
theorem promoted_of_fresh (h : Orderly system)
    (hn : system.persisted.metadata.identityTransition = none)
    (hverified : verifyCatalogCandidate source system.persisted context =
      .ok (.verified (some promotion)))
    (hgen : validateNetworkScope promotion.newScope = .ok ())
    (hr : rebinder promotion.oldScope promotion.newScope = .ok ())
    (htime : system.persisted.metadata.updatedAtUnix ≤ updatedAtUnix)
    (he : system.persisted.metadata.catalogRevision + 3 < 2 ^ 64) :
    Promoted promotion updatedAtUnix system.outcomes
      (drive rebinder (fuel + 6) (system.start promotion context updatedAtUnix)) := by
  have hv := persisted_valid h
  have halias : system.persisted.metadata.identityAliases = [] := by
    have hseq := h.sequenced
    rw [Sequenced, hn] at hseq
    exact hseq
  obtain ⟨_, -, hp⟩ := identityPromotion_of_verified hverified
  obtain ⟨hold, hanchored, ⟨_, -, hnew⟩, -⟩ := identityPromotion_ok hp
  obtain ⟨ha, hcp⟩ := boundaries_valid hv hn hp
  obtain ⟨_, _, hdrive, hhold, rfl, -, rfl, hpersisted, hout⟩ :=
    drive_start promotion context rebinder (fuel + 5) hv htime
  rw [hdrive, ← hout]
  rw [← hpersisted] at hn halias hold he hv
  have hok := validateMetadata_eq_ok.1 hv.head.metadataOk
  exact promoted_of_unprepared hhold hr hn halias hold.symm
    (hok.prepared hold.symm hanchored (by rw [hnew]; rfl) hgen ha hcp) he

end PromotionSystem

/-- An attempt ends alike for promotions with the same boundaries. -/
theorem Promoted.of_matches {began : CatalogIdentityPromotion}
    {outcomes : List (ZoneCatalogServiceResult CatalogSnapshot)} {next : PromotionSystem}
    (h : Promoted promotion updatedAtUnix outcomes next)
    (hp : transitionMatchesPromotion transition promotion = true)
    (hbegan : transitionMatchesPromotion transition began = true) :
    Promoted began updatedAtUnix outcomes next := by
  obtain ⟨hold, hnew, ha, hcp⟩ := transitionMatchesPromotion_iff.1 hp
  obtain ⟨hold', hnew', ha', hcp'⟩ := transitionMatchesPromotion_iff.1 hbegan
  obtain ⟨committed, hsome, hst, hmatch⟩ := h.transition
  obtain ⟨hold'', hnew'', ha'', hcp''⟩ := transitionMatchesPromotion_iff.1 hmatch
  refine ⟨h.returned, h.outcome, ?_, ?_, committed, hsome, hst, ?_⟩
  · rw [h.scope, ← hnew, hnew']
  · rw [h.aliases, ← hold, hold']
  · refine transitionMatchesPromotion_iff.2 ⟨?_, ?_, ?_, ?_⟩
    · rw [hold'', ← hold, hold']
    · rw [hnew'', ← hnew, hnew']
    · rw [ha'', ← ha, ha']
    · rw [hcp'', ← hcp, hcp']

open PromotionSystem

/-- **Identity promotion is safe against crashes.** From a catalog that has never been promoted,
whatever attempts are made, cut or failing, and whatever batches are committed:

* every step moves the stored identity as `Moves` says, so the stage only goes up, and the scope
  changes with the stage `committed` only, after a rebind of the same scopes;
* everything that was stored passes the check of the metadata;
* when the transition is committed, the old scope is an alias exactly once;
* a catalog with a pending transition is promoted by the next attempt with a verified source that
  is not cut, exactly as an attempt for a promotion `began` with the boundaries of the transition;
* and that is how an attempt ends on a catalog without a transition, if it is not cut.

An attempt must not be made at a time before the last update, nor when the revisions of the
catalog are exhausted. -/
theorem identity_promotion_crash_safe {persisted : CatalogSnapshot}
    (hvalid : validateSnapshot persisted = .ok ())
    (hnone : persisted.metadata.identityTransition = none)
    (haliases : persisted.metadata.identityAliases = []) {steps : List PromotionStep}
    {system : PromotionSystem} (hrun : (initial persisted).run steps = some system) :
    (∀ taken next, system.step taken = some next →
      Moves system.rebinds system.persisted.metadata next.persisted.metadata) ∧
    (∀ snapshot ∈ system.stored, validateMetadata snapshot.metadata = .ok ()) ∧
    (∀ transition, system.persisted.metadata.identityTransition = some transition →
      transition.stage = .committed →
      system.persisted.metadata.networkScope = transition.newScope ∧
        (system.persisted.metadata.identityAliases.map NetworkIdentityAlias.networkScope).count
          transition.oldScope = 1) ∧
    (∀ source context promotion transition began rebinder updatedAtUnix,
      system.persisted.metadata.identityTransition = some transition →
      transition.stage ≠ .committed → transitionMatchesPromotion transition began = true →
      verifyCatalogCandidate source system.persisted context = .ok (.verified (some promotion)) →
      rebinder promotion.oldScope promotion.newScope = .ok () →
      system.persisted.metadata.updatedAtUnix ≤ updatedAtUnix →
      system.persisted.metadata.catalogRevision + 2 < 2 ^ 64 →
      Promoted began updatedAtUnix system.outcomes
        (drive rebinder 6 (system.start promotion context updatedAtUnix))) ∧
    (∀ source context began rebinder updatedAtUnix,
      system.persisted.metadata.identityTransition = none →
      verifyCatalogCandidate source system.persisted context = .ok (.verified (some began)) →
      validateNetworkScope began.newScope = .ok () →
      rebinder began.oldScope began.newScope = .ok () →
      system.persisted.metadata.updatedAtUnix ≤ updatedAtUnix →
      system.persisted.metadata.catalogRevision + 3 < 2 ^ 64 →
      Promoted began updatedAtUnix system.outcomes
        (drive rebinder 6 (system.start began context updatedAtUnix))) := by
  have h := orderly_run (orderly_initial (validSnapshot_iff.1 hvalid) hnone haliases) hrun
  have hok := validateMetadata_eq_ok.1 (persisted_valid h).head.metadataOk
  refine ⟨fun _ _ hstep => (proceeds_step h hstep).moves,
    fun snapshot hsnapshot => (h.valid snapshot hsnapshot).head.metadataOk, ?_, ?_, ?_⟩
  · intro transition hsome hstage
    obtain ⟨hscope, hmem⟩ := (hok.transition transition hsome).committed hstage
    exact ⟨hscope, List.count_eq_one_of_mem hok.distinct hmem⟩
  · intro source context promotion _ began rebinder updatedAtUnix hsome hstage hbegan
      hverified hrebinder htime hexhausted
    have hpromoted : Promoted promotion updatedAtUnix system.outcomes
        (drive rebinder (1 + 5) (system.start promotion context updatedAtUnix)) :=
      promoted_of_pending h hsome hstage hverified hrebinder htime hexhausted
    exact hpromoted.of_matches (identityPromotion_of_pending hverified hsome hstage) hbegan
  · intro _ context began rebinder updatedAtUnix hnone hverified hgenesis hrebinder htime hexhausted
    have hpromoted : Promoted began updatedAtUnix system.outcomes
        (drive rebinder (0 + 6) (system.start began context updatedAtUnix)) :=
      promoted_of_fresh h hnone hverified hgenesis hrebinder htime hexhausted
    exact hpromoted

/-! ### An attempt that is cut -/

/-- The metadata of a new catalog of a network known by its block at slot `4`. -/
def anchoredMetadata : CatalogMetadata :=
  { sampleMetadata with
    networkScope := .finalizedAnchor ['0'] 4 (sampleId '4') (sampleId '0')
    identityAssurance := .provisional }

def anchorPromotion : CatalogIdentityPromotion where
  oldScope := anchoredMetadata.networkScope
  newScope := .genesisId (sampleId '0')
  anchor := ⟨4, sampleId '4', sampleId '0'⟩
  checkpoint := ⟨4, sampleId '4', sampleId '0'⟩
  assurance := .sourceAttested

def succeedingRebinder : CatalogIdentityRebinder := fun _ _ => .ok ()

/-- An attempt at time `10` that is cut once the promotion is prepared. -/
def cutAttempt : List PromotionStep :=
  [.start sampleSource 0 sampleRunContext 10, .advance succeedingRebinder,
    .advance succeedingRebinder, .stop none]

/-- What is stored after the cut, and after another attempt with the clock set back. -/
theorem cutAttempt_prepared : ∃ system,
    (initial (newCatalog anchoredMetadata)).run cutAttempt = some system ∧
      decide (system.persisted.metadata.identityTransition =
          some (preparedTransition anchorPromotion 1 10) ∧
        system.persisted.metadata.updatedAtUnix = 10 ∧
        system.persisted.metadata.catalogRevision = 1 ∧
        verifyCatalogCandidate sampleSource system.persisted sampleRunContext =
          .ok (.verified (some anchorPromotion)) ∧
        (drive succeedingRebinder 6
          (system.start anchorPromotion sampleRunContext 9)).attempt.isNone ∧
        (drive succeedingRebinder 6
            (system.start anchorPromotion sampleRunContext 9)).persisted.metadata =
          system.persisted.metadata) = true :=
  Option.map_eq_some_iff.1 (by decide +kernel)

/-- With the clock set back, an attempt that is not cut does not complete the promotion. -/
theorem pending_promotion_stays : ∃ system,
    (initial (newCatalog anchoredMetadata)).run cutAttempt = some system ∧
    verifyCatalogCandidate sampleSource system.persisted sampleRunContext =
      .ok (.verified (some anchorPromotion)) ∧
    (drive succeedingRebinder 6 (system.start anchorPromotion sampleRunContext 9)).attempt = none ∧
    (drive succeedingRebinder 6
        (system.start anchorPromotion sampleRunContext 9)).persisted.metadata.identityTransition =
      some (preparedTransition anchorPromotion 1 10) := by
  obtain ⟨system, hrun, hfacts⟩ := cutAttempt_prepared
  obtain ⟨hsome, -, -, hverified, hreturned, hstored⟩ := of_decide_eq_true hfacts
  exact ⟨system, hrun, hverified, Option.isNone_iff_eq_none.1 hreturned, by rw [hstored, hsome]⟩

theorem identity_promotion_crash_safe_sample : ∃ system,
    (initial (newCatalog anchoredMetadata)).run cutAttempt = some system ∧
    Promoted anchorPromotion 11 system.outcomes
      (drive succeedingRebinder 6 (system.start anchorPromotion sampleRunContext 11)) := by
  obtain ⟨system, hrun, hfacts⟩ := cutAttempt_prepared
  obtain ⟨hsome, _, _, hverified, -⟩ := of_decide_eq_true hfacts
  obtain ⟨-, -, -, hresumes, -⟩ :=
    identity_promotion_crash_safe (by decide +kernel) rfl rfl hrun
  refine ⟨system, hrun, ?_⟩
  exact hresumes sampleSource sampleRunContext anchorPromotion _ anchorPromotion
    succeedingRebinder 11 hsome (by decide) (by decide) hverified rfl (by omega) (by omega)

end LogosInspector.Catalog
