import LogosInspector.Catalog.Checks

/-!
# Runs of the engine

A *run* starts from a new catalog and commits, one after the other, batches that the engine
proposes for the catalog of the moment. A page that needs a repair or a gap to be opened is
answered in several calls for one and the same catalog: what is offered first
(`Offered.page`), what comes of the search that was asked for (`Offered.repair`), what comes
of the confirmation that was asked for (`Offered.confirm`). Requests are passed on as the
engine returned them; what is served, found and confirmed is arbitrary.

Each step is labelled with the blocks that it reads. Two parameters restrict runs where a
result needs it: `served`, the blocks that occur, and `confirms`, the confirmations that are
given.

The last section replays runs: a list of `Request`s determines the blocks read and the
catalog reached (`replay`), and what is replayed is a run (`Run.replay`).
-/

namespace LogosInspector.Catalog

open List Option

/-- The events of a page that are not among the remaining ones: those that were read. -/
def readEvents (events remaining : List CatalogL1BlockEvent) : List CatalogL1BlockEvent :=
  events.take (events.length - remaining.length)

theorem readEvents_append (accepted remaining : List CatalogL1BlockEvent) :
    readEvents (accepted ++ remaining) remaining = accepted := by
  rw [readEvents, length_append, Nat.add_sub_cancel, take_left]

section Runs

variable (ext : Externals) (served : Set CatalogL1Block)
  (confirms : CatalogSnapshot → CatalogRepairConfirmation → Prop)

/-- **What the engine returns for a page**, possibly after a search and a confirmation that
it has asked for, all on the same catalog; `events` are the blocks it is about. -/
inductive Offered (s : CatalogSnapshot) :
    (events : List CatalogL1BlockEvent) → CatalogPageReduction → Prop
  /-- The answer to a page. -/
  | page {page : CatalogL1RangePage} {context : CatalogEngineContext}
      {reduction : CatalogPageReduction} (hserved : ∀ e ∈ page.events, e.block ∈ served)
      (h : reduceCatalogPage ext s page context = .ok reduction) :
      Offered s page.events reduction
  /-- The answer to what a search has found. -/
  | repair {events pending : List CatalogL1BlockEvent}
      {request : CatalogAncestryRepairRequest} {outcome : CatalogAncestryRepairOutcome}
      {context : CatalogEngineContext} {first : CatalogL1BlockEvent}
      {reduction : CatalogPageReduction}
      (hasked : Offered s events (.repairRequired request pending))
      (hserved : ∀ b ∈ outcome.recoveredBlocks, b ∈ served)
      (hfirst : pending.head? = some first)
      (h : reduceCatalogRepair ext s request pending outcome context = .ok reduction) :
      Offered s (prependRecoveredEvents outcome.recoveredBlocks pending first.snapshot) reduction
  /-- The answer to a confirmation. -/
  | confirm {events pending : List CatalogL1BlockEvent}
      {request : CatalogAncestryRepairRequest} {outcome : CatalogAncestryRepairOutcome}
      {confirmation : CatalogRepairConfirmation} {context : CatalogEngineContext}
      {first : CatalogL1BlockEvent} {reduction : CatalogPageReduction}
      (hasked : Offered s events (.gapConfirmationRequired request pending outcome))
      (hconfirms : confirms s confirmation) (hfirst : pending.head? = some first)
      (h : confirmCatalogRepairGap ext s request pending outcome confirmation context =
        .ok reduction) :
      Offered s (prependRecoveredEvents outcome.recoveredBlocks pending first.snapshot) reduction

/-- **The engine proposes a batch** for the catalog `s` that reads `blocks`. -/
inductive Proposes (s : CatalogSnapshot) : (blocks : List CatalogL1Block) → CatalogBatch → Prop
  /-- Setting the target. -/
  | prepare {target : CatalogBlockReference} {context : CatalogEngineContext} {resume : Bool}
      {batch : CatalogBatch}
      (h : prepareCatalogCatchUpWithResume s target context resume = .ok (some batch)) :
      Proposes s [] batch
  /-- Reading a page. -/
  | page {events remaining : List CatalogL1BlockEvent} {batch : CatalogBatch}
      (h : Offered ext served confirms s events (.commit batch remaining)) :
      Proposes s (eventBlocks (readEvents events remaining)) batch
  /-- Reading blocks that precede the first segment. -/
  | prefixRepair {outcome : CatalogAncestryRepairOutcome}
      {confirmation : CatalogRepairConfirmation} {context : CatalogEngineContext}
      {batch : CatalogBatch} (hserved : ∀ b ∈ outcome.recoveredBlocks, b ∈ served)
      (hconfirms : confirms s confirmation)
      (h : reduceCatalogPrefixRepair ext s outcome confirmation context = .ok (some batch)) :
      Proposes s outcome.recoveredBlocks batch
  /-- Reading blocks of a gap. -/
  | gapRepair {gapId : Text} {outcome : CatalogAncestryRepairOutcome}
      {confirmation : CatalogRepairConfirmation} {context : CatalogEngineContext}
      {batch : CatalogBatch} (hserved : ∀ b ∈ outcome.recoveredBlocks, b ∈ served)
      (hconfirms : confirms s confirmation)
      (h : reduceCatalogGapRepair ext s gapId outcome confirmation context = .ok batch) :
      Proposes s outcome.recoveredBlocks batch

/-- **A step**: the store commits a batch that the engine proposes. -/
def Step (s : CatalogSnapshot) (blocks : List CatalogL1Block) (s' : CatalogSnapshot) : Prop :=
  ∃ batch, Proposes ext served confirms s blocks batch ∧ Committed s batch s'

/-- **A run** from a new catalog; `log` are the blocks read, in the order they were read. -/
inductive Run (metadata : CatalogMetadata) : (log : List CatalogL1Block) → CatalogSnapshot → Prop
  /-- Nothing has been read. -/
  | new (h : validateSnapshot (newCatalog metadata) = .ok ()) :
    Run metadata [] (newCatalog metadata)
  /-- One more step. -/
  | step {log blocks : List CatalogL1Block} {s s' : CatalogSnapshot}
      (hrun : Run metadata log s) (hstep : Step ext served confirms s blocks s') :
      Run metadata (log ++ blocks) s'

end Runs

/-! ### Replaying a run -/

/-- What the engine is given in one step. -/
inductive Request
  /-- A target. -/
  | prepare (target : CatalogBlockReference) (context : CatalogEngineContext)
  /-- A page that goes on at the cursor. -/
  | page (events : List CatalogL1BlockEvent) (context : CatalogEngineContext)
  /-- A page that does not, with what was found and confirmed. -/
  | pageAboveGap (events : List CatalogL1BlockEvent) (outcome : CatalogAncestryRepairOutcome)
      (confirmation : CatalogRepairConfirmation) (context : CatalogEngineContext)
  /-- Blocks that precede the first segment. -/
  | prefixRepair (outcome : CatalogAncestryRepairOutcome)
      (confirmation : CatalogRepairConfirmation) (context : CatalogEngineContext)
  /-- Blocks of a gap. -/
  | gapRepair (gapId : Text) (outcome : CatalogAncestryRepairOutcome)
      (confirmation : CatalogRepairConfirmation) (context : CatalogEngineContext)

/-- The blocks a request brings. -/
def Request.blocks : Request → List CatalogL1Block
  | .prepare .. => []
  | .page events _ => eventBlocks events
  | .pageAboveGap events outcome _ _ => eventBlocks events ++ outcome.recoveredBlocks
  | .prefixRepair outcome _ _ => outcome.recoveredBlocks
  | .gapRepair _ outcome _ _ => outcome.recoveredBlocks

/-- A page above a gap: the engine asks for a search, then for a confirmation. -/
def proposeAboveGap (ext : Externals) (s : CatalogSnapshot) (events : List CatalogL1BlockEvent)
    (outcome : CatalogAncestryRepairOutcome) (confirmation : CatalogRepairConfirmation)
    (context : CatalogEngineContext) : Option (List CatalogL1Block × CatalogBatch) :=
  match reduceCatalogPage ext s ⟨events⟩ context with
  | .ok (.repairRequired request pending) =>
    match pending.head?, reduceCatalogRepair ext s request pending outcome context with
    | some _, .ok (.gapConfirmationRequired request' pending' outcome') =>
      match pending'.head?,
          confirmCatalogRepairGap ext s request' pending' outcome' confirmation context with
      | some first', .ok (.commit batch remaining) => some (eventBlocks (readEvents
          (prependRecoveredEvents outcome'.recoveredBlocks pending' first'.snapshot) remaining),
          batch)
      | _, _ => none
    | _, _ => none
  | _ => none

/-- The batch that the engine proposes, and the blocks it reads. -/
def Request.propose (ext : Externals) (s : CatalogSnapshot) :
    Request → Option (List CatalogL1Block × CatalogBatch)
  | .prepare target context =>
    match prepareCatalogCatchUp s target context with
    | .ok (some batch) => some ([], batch)
    | _ => none
  | .page events context =>
    match reduceCatalogPage ext s ⟨events⟩ context with
    | .ok (.commit batch remaining) => some (eventBlocks (readEvents events remaining), batch)
    | _ => none
  | .pageAboveGap events outcome confirmation context =>
    proposeAboveGap ext s events outcome confirmation context
  | .prefixRepair outcome confirmation context =>
    match reduceCatalogPrefixRepair ext s outcome confirmation context with
    | .ok (some batch) => some (outcome.recoveredBlocks, batch)
    | _ => none
  | .gapRepair gapId outcome confirmation context =>
    match reduceCatalogGapRepair ext s gapId outcome confirmation context with
    | .ok batch => some (outcome.recoveredBlocks, batch)
    | _ => none

/-- The blocks read by requests, one after the other, and the catalog that is reached. -/
def replay (ext : Externals) (s : CatalogSnapshot) :
    List Request → Option (List CatalogL1Block × CatalogSnapshot)
  | [] => some ([], s)
  | request :: rest =>
    match request.propose ext s with
    | none => none
    | some (blocks, batch) =>
      match (commitBatch s batch).2 with
      | .error _ => none
      | .ok s' => (replay ext s' rest).map fun (log, final) => (blocks ++ log, final)

/-- The catalogs before the steps of a replay, and the blocks that the steps read. -/
def replaySteps (ext : Externals) (s : CatalogSnapshot) :
    List Request → List (CatalogSnapshot × List CatalogL1Block)
  | [] => []
  | request :: rest =>
    match request.propose ext s with
    | none => []
    | some (blocks, batch) =>
      (s, blocks) :: match (commitBatch s batch).2 with
        | .error _ => []
        | .ok s' => replaySteps ext s' rest

section Replay

variable {ext : Externals} {served : Set CatalogL1Block}
  {confirms : CatalogSnapshot → CatalogRepairConfirmation → Prop} {s : CatalogSnapshot}

variable {blocks : List CatalogL1Block} {batch : CatalogBatch}

theorem proposeAboveGap_eq_some {events : List CatalogL1BlockEvent}
    {outcome : CatalogAncestryRepairOutcome} {confirmation : CatalogRepairConfirmation}
    {context : CatalogEngineContext}
    (hevs : ∀ b ∈ eventBlocks events, b ∈ served)
    (hout : ∀ b ∈ outcome.recoveredBlocks, b ∈ served)
    (hconfirms : confirms s confirmation)
    (h : proposeAboveGap ext s events outcome confirmation context = some (blocks, batch)) :
    Proposes ext served confirms s blocks batch := by
  unfold proposeAboveGap at h
  split at h
  · next req pending hpage =>
    split at h
    · next first request' pending' outcome' hfirst hr =>
      split at h
      · next first' batch' remaining hfirst' hcon =>
        obtain ⟨rfl, rfl⟩ := Prod.mk.inj (some_inj.1 h)
        have hs : ∀ e ∈ events, e.block ∈ served := fun e he =>
          hevs _ (mem_map_of_mem he)
        exact .page (.confirm (.repair (.page hs hpage) hout hfirst hr) hconfirms hfirst' hcon)
      · cases h
    · cases h
  · cases h

/-- What a request proposes, the engine proposes. -/
theorem Request.proposes {req : Request}
    (hs : ∀ b ∈ req.blocks, b ∈ served) (hcon : ∀ c, confirms s c)
    (h : req.propose ext s = some (blocks, batch)) :
    Proposes ext served confirms s blocks batch := by
  cases req with
  | prepare =>
    simp only [Request.propose] at h
    split at h
    · next batch' hpre =>
      obtain ⟨rfl, rfl⟩ := Prod.mk.inj (some_inj.1 h)
      exact .prepare hpre
    · cases h
  | page =>
    simp only [Request.propose] at h
    split at h
    · next batch' remaining hpage =>
      obtain ⟨rfl, rfl⟩ := Prod.mk.inj (some_inj.1 h)
      exact .page (.page (fun e he => hs _ (mem_map_of_mem he)) hpage)
    · cases h
  | pageAboveGap _ _ confirmation =>
    exact proposeAboveGap_eq_some (fun b hb => hs b (mem_append_left _ hb))
      (fun b hb => hs b (mem_append_right _ hb)) (hcon confirmation) h
  | prefixRepair _ confirmation =>
    simp only [Request.propose] at h
    split at h
    · next batch' hr =>
      obtain ⟨rfl, rfl⟩ := Prod.mk.inj (some_inj.1 h)
      exact .prefixRepair hs (hcon confirmation) hr
    · cases h
  | gapRepair _ _ confirmation =>
    simp only [Request.propose] at h
    split at h
    · next batch' hr =>
      obtain ⟨rfl, rfl⟩ := Prod.mk.inj (some_inj.1 h)
      exact .gapRepair hs (hcon confirmation) hr
    · cases h

/-- **What every step of a replay keeps, the replay keeps.** -/
theorem replay_induction {motive : List CatalogL1Block → CatalogSnapshot → Prop}
    {log log' : List CatalogL1Block} {s' : CatalogSnapshot} {requests : List Request}
    (hs : ∀ req ∈ requests, ∀ b ∈ req.blocks, b ∈ served)
    (hcon : ∀ s c, confirms s c)
    (hstep : ∀ {log s₁ blocks s₂}, (s₁, blocks) ∈ replaySteps ext s requests → motive log s₁ →
      Step ext served confirms s₁ blocks s₂ → motive (log ++ blocks) s₂)
    (hstart : motive log s) (h : Catalog.replay ext s requests = some (log', s')) :
    motive (log ++ log') s' := by
  induction requests generalizing s log log' with
  | nil =>
    obtain ⟨rfl, rfl⟩ := Prod.mk.inj (some_inj.1 h)
    rwa [append_nil]
  | cons req _ ih =>
    rw [Catalog.replay] at h
    rw [replaySteps] at hstep
    cases hp : req.propose ext s with
    | none =>
      rw [hp] at h
      cases h
    | some proposal =>
      obtain ⟨blocks, batch⟩ := proposal
      rw [hp] at h hstep
      simp only at h hstep
      cases hc : (commitBatch s batch).2 with
      | error =>
        rw [hc] at h
        cases h
      | ok next =>
        rw [hc] at h hstep
        obtain ⟨⟨_, _⟩, htail, heq⟩ := map_eq_some_iff.1 h
        obtain ⟨rfl, rfl⟩ := Prod.mk.inj heq
        rw [← append_assoc]
        refine ih (fun r hr => hs r (mem_cons_of_mem _ hr))
          (fun hm => hstep (mem_cons_of_mem _ hm)) (hstep (by simp) hstart ?_) htail
        exact ⟨batch, Request.proposes (hs req mem_cons_self) (hcon s) hp, hc⟩

/-- **What is replayed is a run.** -/
theorem Run.replay {metadata : CatalogMetadata} {log log' : List CatalogL1Block}
    {s' : CatalogSnapshot} {requests : List Request}
    (hs : ∀ req ∈ requests, ∀ b ∈ req.blocks, b ∈ served)
    (hcon : ∀ s c, confirms s c) (hrun : Run ext served confirms metadata log s)
    (h : Catalog.replay ext s requests = some (log', s')) :
    Run ext served confirms metadata (log ++ log') s' :=
  replay_induction hs hcon (fun _ hb hstep => hb.step hstep) hrun h

/-- A replay of a new catalog is a run; `f` is what is looked at in the end. -/
theorem exists_run_of_replay (ext : Externals) (served : Set CatalogL1Block)
    (metadata : CatalogMetadata) (requests : List Request) {β : Type}
    (f : List CatalogL1Block × CatalogSnapshot → β) {b : β}
    (hnew : validateSnapshot (newCatalog metadata) = .ok ())
    (hs : ∀ r ∈ requests, ∀ b ∈ r.blocks, b ∈ served)
    (hr : (replay ext (newCatalog metadata) requests).map f = some b) :
    ∃ log s, Run ext served (fun _ _ => True) metadata log s ∧ f (log, s) = b := by
  obtain ⟨⟨log, s⟩, hsome, hf⟩ := map_eq_some_iff.1 hr
  exact ⟨log, s, (Run.new hnew).replay hs (fun _ _ => trivial) hsome, hf⟩

end Replay

/-! ### A sample chain -/

/-- A stand-in for SHA-256 that keeps the first sixteen bytes of each of two ids; all bytes but
the empty ones are sequencer blocks, and no header states their hash. -/
def sampleExternals : Externals where
  sha256 bytes := (bytes.take 16 ++ (bytes.drop 64).take 16 ++ List.replicate 32 0).take 32
  hexDecode _ := .error "not used"
  SequencerBlock := Unit
  parseSequencerBlock bytes := if bytes = [] then none else some ()
  encodeHashable _ := .ok []
  headerHash _ := []

/-- A configuration of a channel, with the given keys. -/
def sampleConfiguration (channel : Char) (keys : List String) : Json :=
  .object [("opcode".toList, .number (.posInt 16)),
    ("payload".toList, .object [("channel".toList, .string (sampleId channel)),
      ("keys".toList, .array (keys.map fun key => .string key.toList)),
      ("withdraw_threshold".toList, .string "1".toList)])]

/-- An inscription on a channel, after a message or, if that is `0`, as the first. -/
def sampleInscriptionOf (channel parent : Char) (signer : String) (bytes : List UInt64) : Json :=
  .object [("opcode".toList, .number (.posInt 17)),
    ("payload".toList, .object [("channel_id".toList, .string (sampleId channel)),
      ("parent".toList, .string (sampleId parent)),
      ("signer".toList, .string signer.toList),
      ("inscription".toList, .array (bytes.map fun byte => .number (.posInt byte)))])]

/-- An empty inscription. -/
def sampleInscription (channel parent : Char) (signer : String) : Json :=
  sampleInscriptionOf channel parent signer []

/-- A transaction with the given operations. -/
def sampleTransaction (id : Char) (operations : List Json) : Json :=
  .object [("mantle_tx".toList,
    .object [("hash".toList, .string (sampleId id)), ("ops".toList, .array operations)])]

/-- A block with the given transactions. -/
def sampleBlockWith (slot : ℕ) (id parent : Char) (transactions : List Json) : CatalogL1Block where
  checkpoint := ⟨slot, sampleId id, sampleId parent⟩
  payload := .object [("header".toList, .object
      [("slot".toList, .number (.posInt (UInt64.ofNat slot))), ("id".toList, .string (sampleId id)),
        ("parent_block".toList, .string (sampleId parent))]),
    ("transactions".toList, .array transactions)]

/-- A block with one transaction, which has the same name as the block. -/
def sampleBlockOf (slot : ℕ) (id parent : Char) (operations : List Json) : CatalogL1Block :=
  sampleBlockWith slot id parent [sampleTransaction id operations]

/-- A block without operations. -/
def sampleBlock (slot : ℕ) (id parent : Char) : CatalogL1Block := sampleBlockOf slot id parent []

/-- A chain whose target is the block at slot `9`. -/
def sampleSnapshot : CatalogL1ChainSnapshot :=
  ⟨⟨9, sampleId '9'⟩, ⟨9, sampleId '9'⟩⟩

def sampleContext : CatalogEngineContext := ⟨1, 2, 8, by decide, by decide⟩

/-- The first block is read, then the block at slot `5`, above a gap: its parent, at slot `4`,
is not found. -/
def sampleGapRequests : List Request :=
  [.prepare ⟨9, sampleId '9'⟩ sampleContext,
    .page [⟨sampleBlock 0 '0' 'f', sampleSnapshot⟩] sampleContext,
    .pageAboveGap [⟨sampleBlock 5 '5' '4', sampleSnapshot⟩]
      (.unresolved [] (sampleId '4') .missingParent)
      ⟨⟨9, sampleId '9'⟩, some ⟨0, sampleId '0'⟩, none⟩ sampleContext]

/-- Three blocks with given operations. -/
def sampleChainOf (first second third : List Json) : List CatalogL1Block :=
  [sampleBlockOf 0 '0' 'f' first, sampleBlockOf 4 '4' '0' second, sampleBlockOf 9 '9' '4' third]

/-- The blocks are read in order. -/
def sampleSequentialOf (first second third : List Json) : List Request :=
  [.prepare ⟨9, sampleId '9'⟩ sampleContext,
    .page ((sampleChainOf first second third).map (⟨·, sampleSnapshot⟩)) sampleContext]

/-- The second block is missing when the third is read, and then found. -/
def sampleRepairOf (first second third : List Json) : List Request :=
  [.prepare ⟨9, sampleId '9'⟩ sampleContext,
    .page [⟨sampleBlockOf 0 '0' 'f' first, sampleSnapshot⟩] sampleContext,
    .pageAboveGap [⟨sampleBlockOf 9 '9' '4' third, sampleSnapshot⟩]
      (.unresolved [] (sampleId '4') .missingParent)
      ⟨⟨9, sampleId '9'⟩, some ⟨0, sampleId '0'⟩, none⟩ sampleContext,
    .gapRepair ("gap-".toList ++ Text.hexEncode (sampleExternals.sha256
        (Text.bytes (sampleId '0') ++ Text.bytes (sampleId '9'))))
      (.connected [sampleBlockOf 4 '4' '0' second])
      ⟨⟨9, sampleId '9'⟩, some ⟨0, sampleId '0'⟩, some ⟨9, sampleId '9', sampleId '4'⟩⟩
      sampleContext]

theorem blocks_sampleSequentialOf (first second third : List Json) :
    ∀ r ∈ sampleSequentialOf first second third, ∀ b ∈ r.blocks,
      b ∈ sampleChainOf first second third := by
  simp [sampleSequentialOf, sampleChainOf, Request.blocks]

theorem blocks_sampleRepairOf (first second third : List Json) :
    ∀ r ∈ sampleRepairOf first second third, ∀ b ∈ r.blocks,
      b ∈ sampleChainOf first second third := by
  simp [sampleRepairOf, sampleChainOf, Request.blocks, CatalogAncestryRepairOutcome.recoveredBlocks]

/-- A channel is started in the first block and configured in the second. -/
def sampleChain : List CatalogL1Block :=
  sampleChainOf [sampleInscription 'c' '0' "A"] [sampleConfiguration 'c' ["A", "B"]]
    [sampleInscription 'c' '1' "A"]

/-- The blocks of the sample chain are read in order. -/
def sampleSequentialRequests : List Request :=
  sampleSequentialOf [sampleInscription 'c' '0' "A"] [sampleConfiguration 'c' ["A", "B"]]
    [sampleInscription 'c' '1' "A"]

/-- The second block of the sample chain is missing when the third is read, and then found. -/
def sampleRepairRequests : List Request :=
  sampleRepairOf [sampleInscription 'c' '0' "A"] [sampleConfiguration 'c' ["A", "B"]]
    [sampleInscription 'c' '1' "A"]

end LogosInspector.Catalog
