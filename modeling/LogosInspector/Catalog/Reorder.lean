import LogosInspector.Catalog.Zones

/-!
# Two orders of reading

The same blocks can be read in different orders: as they are served, or some of them later, by
repairs of the prefix and of gaps. Two runs that have read the same blocks agree on what is
computed from the evidence, up to the names of the segments (`SameSummary`): the evidence is the
same, and so is the division into segments, since a segment goes on wherever a block is the
parent of the next (`Run.sameSegments`).

Whether the evidence of a channel is conflicting is also the same, but it is **not** the case
that every inscription that was classified as conflicting makes it so: of the operations of a
block with the same evidence id only the first counts (`Counted`).
-/

namespace LogosInspector.Catalog

open List Table

/-! ### Gaps are not adjacent -/

variable {ext : Externals} {served : Set CatalogL1Block}
  {confirms : CatalogSnapshot → CatalogRepairConfirmation → Prop} {metadata : CatalogMetadata}
  {log : List CatalogL1Block} {s s' : CatalogSnapshot}

section Apart

variable {blocks : List CatalogL1Block} {context : CatalogEngineContext}

/-- The block above a gap does not go on from the block below it. -/
def GapsApart (s : CatalogSnapshot) : Prop :=
  ∀ gap ∈ s.gaps, gap.requiredParentId ≠ gap.lowerCheckpoint.blockId

theorem Effect.gapsApart (h : GapsApart s) (he : Effect ext confirms s blocks context s') :
    GapsApart s' := by
  intro gap hgap
  cases he with
  | retarget _ he | extend _ _ _ _ _ _ he | start _ _ _ _ he | openPrefix _ _ _ _ he
  | repairPrefix _ _ _ _ _ _ he => exact h gap (he.gaps ▸ hgap)
  | openGap _ _ _ _ _ _ _ he | shrink _ _ _ _ _ _ _ he =>
    rw [he.gaps, mem_insert] at hgap
    rcases hgap with rfl | ⟨hgap, -⟩
    · exact he.apart
    · exact h gap hgap
  | merge _ _ _ _ _ _ _ he =>
    rw [he.gaps, mem_modifyAll] at hgap
    obtain ⟨g, hg, rfl⟩ := hgap
    exact h g (mem_erase.1 hg).1
  | backOff old _ _ _ he =>
    rw [he.gaps, mem_insert] at hgap
    rcases hgap with rfl | ⟨hgap, -⟩
    · exact h old he.gapMem
    · exact h gap hgap

theorem Run.gapsApart (h : Run ext served confirms metadata log s) : GapsApart s := by
  induction h with
  | new => exact fun _ hgap => absurd hgap not_mem_empty
  | step _ hstep ih =>
    obtain ⟨-, -, _, he⟩ := hstep.effect
    exact he.gapsApart ih

end Apart

/-! ### The segments are the maximal chains -/

variable {links : List Link}

instance (a b : CatalogL1Block) : Decidable (ParentOf a b) :=
  inferInstanceAs (Decidable (_ ∧ _))

/-- The blocks of all links, from the lowest to the highest, have increasing slots. -/
theorem Topology.pairwise_linkBlocks (h : Topology ext served s links) :
    (linkBlocks links).Pairwise fun a b => a.checkpoint.slot < b.checkpoint.slot := by
  rw [linkBlocks, pairwise_flatMap]
  refine ⟨fun l hl => ?_, h.ascending.imp_of_mem fun {a b} ha hb hlt x hx y hy => ?_⟩
  · obtain ⟨last, hends, -⟩ := h.covered l hl
    exact hends.chain.pairwise_slot
  · obtain ⟨last, hends, hlast⟩ := h.covered a ha
    obtain ⟨_, hends', -⟩ := h.covered b hb
    have hx' := (hends.slot_le hx).2
    have hy' := (hends'.slot_le hy).1
    have hlast' := congrArg CatalogBlockReference.slot hlast
    change last.slot = _ at hlast'
    omega

/-- The blocks of the links are the maximal chains among all blocks. -/
theorem Topology.splitBy_linkBlocks (h : Topology ext served s links) (hapart : GapsApart s) :
    (linkBlocks links).splitBy (fun a b => decide (ParentOf a b)) = links.map Link.blocks := by
  rw [splitBy_eq_iff]
  refine ⟨flatMap_def, ?_, ?_, ?_⟩
  · intro hmem
    obtain ⟨l, hl, hnil⟩ := mem_map.1 hmem
    obtain ⟨last, hends, -⟩ := h.covered l hl
    exact hends.ne_nil hnil
  · intro _ hm
    obtain ⟨l, hl, rfl⟩ := mem_map.1 hm
    obtain ⟨last, hends, -⟩ := h.covered l hl
    simpa using hends.chain
  · rw [isChain_map]
    refine h.above.imp_of_mem_imp fun a b ha hb habove => ?_
    obtain ⟨_, hends, hlast⟩ := h.covered a ha
    obtain ⟨_, hends', -⟩ := h.covered b hb
    obtain ⟨-, gap, hgap, hjoin⟩ := habove
    refine ⟨hends.ne_nil, hends'.ne_nil, ?_⟩
    rw [decide_eq_false_iff_not]
    rintro ⟨-, hp⟩
    have hhead := hends'.head
    have hlast' := hends.last
    rw [head?_eq_some_head hends'.ne_nil, Option.map_some, Option.some_inj] at hhead
    rw [getLast?_eq_some_getLast hends.ne_nil, Option.map_some, Option.some_inj] at hlast'
    refine hapart gap ((h.gaps gap).2 ⟨b, hb, hgap⟩) ?_
    rw [hjoin.parentId, hjoin.lowerCheckpoint, ← hlast, ← hlast', ← hhead]
    exact hp

/-! ### The same blocks make the same segments -/

variable {served' : Set CatalogL1Block}

section Renaming

variable {ext' : Externals} {links' : List Link}

/-- Links with the same blocks have the same ends. -/
theorem Link.Covered.ends_eq {l l' : Link} (h : l.Covered) (h' : l'.Covered)
    (hblks : l'.blocks = l.blocks) :
    l'.segment.floor = l.segment.floor ∧ l'.segment.frontier = l.segment.frontier := by
  obtain ⟨_, hends, hlast⟩ := h
  obtain ⟨_, hends', hlast'⟩ := h'
  have hfloor := hends'.head
  have hf := hends'.last
  rw [hblks, hends.head, Option.some_inj] at hfloor
  rw [hblks, hends.last, Option.some_inj] at hf
  exact ⟨hfloor.symm, by rw [← hlast, ← hlast', hf]⟩

/-- The segments of one catalog are segments of the other, under other names. -/
def SameEnds (s s' : CatalogSnapshot) : Prop :=
  ∀ a ∈ s.segments, ∃ b ∈ s'.segments, b.floor = a.floor ∧ b.frontier = a.frontier

/-- The links of two catalogs that have read the same blocks hold the same blocks. -/
theorem Topology.map_blocks_eq (h : Topology ext served s links)
    (h' : Topology ext' served' s' links') (hapart : GapsApart s) (hapart' : GapsApart s')
    (hread : (linkBlocks links).Perm (linkBlocks links')) :
    links.map Link.blocks = links'.map Link.blocks := by
  have hblks : linkBlocks links = linkBlocks links' :=
    hread.eq_of_pairwise (fun _ _ _ _ hab hba => absurd hab hba.not_gt)
      h.pairwise_linkBlocks h'.pairwise_linkBlocks
  rw [← h.splitBy_linkBlocks hapart, hblks, h'.splitBy_linkBlocks hapart']

theorem Topology.sameEnds (h : Topology ext served s links) (h' : Topology ext' served' s' links')
    (hblks : links.map Link.blocks = links'.map Link.blocks) : SameEnds s s' := by
  intro a ha
  obtain ⟨l, hl, rfl⟩ := (h.segments a).1 ha
  have hm : l.blocks ∈ links'.map Link.blocks := hblks ▸ mem_map_of_mem hl
  obtain ⟨l', hl', hs⟩ := mem_map.1 hm
  exact ⟨l'.segment, (h'.segments _).2 ⟨l', hl', rfl⟩,
    (h.covered l hl).ends_eq (h'.covered l' hl') hs⟩

theorem CoverageTopology.eq_of_slot (h : CoverageTopology s) {a b : CoverageSegment} {slot : ℕ}
    (ha : a ∈ s.segments) (hb : b ∈ s.segments)
    (hslot : a.floor.slot ≤ slot ∧ slot ≤ a.frontier.slot)
    (hslot' : b.floor.slot ≤ slot ∧ slot ≤ b.frontier.slot) : a = b := by
  by_contra hne
  rcases h.disjoint a ha b hb hne with hlt | hlt <;> omega

/-- **How the segments of one catalog are called in another**: the name there of the segment
with the same floor. -/
def renameSegment (s s' : CatalogSnapshot) (segmentId : Text) : Text :=
  (((s.segments.find? segmentId).bind fun segment =>
    s'.segments.records.find? fun other => other.floor = segment.floor).map
      CoverageSegment.segmentId).getD segmentId

/-- Segments with the same floor have corresponding names. -/
theorem renameSegment_eq (h' : CoverageTopology s') {a b : CoverageSegment}
    (ha : a ∈ s.segments) (hb : b ∈ s'.segments) (hfloor : b.floor = a.floor) :
    renameSegment s s' a.segmentId = b.segmentId := by
  unfold renameSegment
  rw [find?_of_mem ha, Option.bind_some]
  cases hf : s'.segments.records.find? fun other => other.floor = a.floor with
  | none =>
    rw [find?_eq_none] at hf
    exact absurd hfloor (by simpa using hf b hb)
  | some other =>
    have ho : other ∈ s'.segments := mem_of_find?_eq_some hf
    have hs : other.floor = a.floor := by simpa using find?_some hf
    rw [Option.map_some, Option.getD_some]
    have hr := h'.ranges other ho
    have hr' := h'.ranges b hb
    rw [hs] at hr
    rw [hfloor] at hr'
    rw [h'.eq_of_slot ho hb ⟨hs ▸ le_rfl, hr⟩ ⟨hfloor ▸ le_rfl, hr'⟩]

end Renaming

/-! ### The same evidence -/

section Evidence

variable {rename : Text → Text} {c : Text}

/-- A piece of evidence under the new name of its segment. -/
def ZoneEvidenceReference.refile (rename : Text → Text) (e : ZoneEvidenceReference) :
    ZoneEvidenceReference :=
  { e with coverageSegmentId := rename e.coverageSegmentId }

open ZoneEvidenceReference (refile)

theorem refile_evidenceId (rename : Text → Text) (e : ZoneEvidenceReference) :
    (e.refile rename).evidenceId = e.evidenceId := rfl

/-- Evidence of two catalogs that is the same but for the segment. -/
theorem refile_eq (hs : ValidSnapshot s) (hs' : ValidSnapshot s') (htop : CoverageTopology s')
    (hends : SameEnds s s') {e e' : ZoneEvidenceReference} (he : e ∈ s.evidence)
    (he' : e' ∈ s'.evidence) (hu : e.unfiled = e'.unfiled) :
    e.refile (renameSegment s s') = e' := by
  obtain ⟨a, ha, hid, hslot⟩ := (hs.evidence e he).segment
  obtain ⟨b, hb, hid', hslot'⟩ := (hs'.evidence e' he').segment
  obtain ⟨b', hb', hfloor, hf⟩ := hends a ha
  -- both pieces are at the same slot, so they are in corresponding segments
  have hsame : e.l1Slot = e'.l1Slot := congr_of_unfiled (·.l1Slot) (fun _ => rfl) hu
  have hbb : b' = b := by
    refine htop.eq_of_slot hb' hb ?_ hslot'
    rw [hfloor, hf, ← hsame]
    exact hslot
  subst hbb
  have hr : renameSegment s s' e.coverageSegmentId = e'.coverageSegmentId := by
    rw [← hid, renameSegment_eq htop ha hb hfloor, hid']
  have hfile : ∀ x : ZoneEvidenceReference, x = { x.unfiled with
      coverageSegmentId := x.coverageSegmentId } := fun _ => rfl
  rw [hfile e', ← hu, ← hr]
  rfl

/-- **The evidence of two catalogs that have read the same blocks** differs only in the names of
the segments. -/
theorem evidence_eq_refile (hs : ValidSnapshot s) (hs' : ValidSnapshot s')
    (htop : CoverageTopology s') (hends : SameEnds s s')
    (hsame : ∀ e, HasEvidence s.evidence e ↔ HasEvidence s'.evidence e) :
    s'.evidence = s.evidence.modifyAll (refile (renameSegment s s'))
      (refile_evidenceId _) := by
  refine ext_mem fun e' => ?_
  rw [mem_modifyAll]
  constructor
  · intro he'
    obtain ⟨e, he, hu⟩ := (hsame e'.unfiled).2 ⟨e', he', rfl⟩
    exact ⟨e, he, refile_eq hs hs' htop hends he he' hu⟩
  · rintro ⟨e, he, rfl⟩
    obtain ⟨_, he', hu⟩ := (hsame e.unfiled).1 ⟨e, he, rfl⟩
    rwa [refile_eq hs hs' htop hends he he' hu.symm]

theorem channelEvidence_refile (evidence : EvidenceTable) :
    channelEvidence (evidence.modifyAll (refile rename)
      (refile_evidenceId rename)) c =
      (channelEvidence evidence c).map (refile rename) := by
  exact filter_map

/-- **Two records agree on what is computed from the evidence**, with segments renamed. -/
structure SameSummary (rename : Text → Text) (record record' : ZoneCatalogRecord) : Prop where
  operationCount : record'.l1Channel.operationCount = record.l1Channel.operationCount
  channelOperations :
    record'.classification.channelOperations = record.classification.channelOperations
  recognizedL2Blocks :
    record'.classification.recognizedL2Blocks = record.classification.recognizedL2Blocks
  rawInscriptions : record'.classification.rawInscriptions = record.classification.rawInscriptions
  evidenceCount : record'.evidenceCount = record.evidenceCount
  firstSeenSlot : record'.firstSeenSlot = record.firstSeenSlot
  lastSeenSlot : record'.lastSeenSlot = record.lastSeenSlot
  tipSlot : record'.l1Channel.tipSlot = record.l1Channel.tipSlot
  latestEvidenceId : record'.latestEvidenceId = record.latestEvidenceId
  segment : record'.snapshotProvenance.coverageSegmentId =
    rename record.snapshotProvenance.coverageSegmentId
  origin : record'.snapshotProvenance.origin = record.snapshotProvenance.origin
  conflicting : record'.classification.conflictingEvidence =
    record.classification.conflictingEvidence

variable {references : List ZoneEvidenceReference}

theorem IsLast.refile_iff {e : ZoneEvidenceReference} :
    IsLast (references.map (refile rename)) e ↔ ∃ x, IsLast references x ∧ x.refile rename = e := by
  constructor
  · rintro ⟨hm, hlast⟩
    obtain ⟨x, hx, rfl⟩ := mem_map.1 hm
    refine ⟨x, ⟨hx, fun r hr => ?_⟩, rfl⟩
    exact hlast (r.refile rename) (mem_map_of_mem hr)
  · rintro ⟨_, hx, rfl⟩
    refine ⟨mem_map_of_mem hx.mem, fun _ hr => ?_⟩
    obtain ⟨y, hy, rfl⟩ := mem_map.1 hr
    exact hx.last y hy

theorem origin_eq {a b : CatalogSnapshotOrigin} (ha : a ≠ .pointSnapshot) (hb : b ≠ .pointSnapshot)
    (h : a = .fullConfiguration ↔ b = .fullConfiguration) : a = b := by
  cases a <;> cases b <;> simp_all

theorem countEvidence_refile (kind : ZoneEvidenceKind) :
    countEvidence (references.map (refile rename)) kind = countEvidence references kind := by
  unfold countEvidence
  rw [filter_map, length_map]
  rfl

/-- Records that sum up the same evidence, but for the names of the segments, agree. -/
theorem SumsUp.sameSummary {r r' : ZoneCatalogRecord} (h : SumsUp references r)
    (h' : SumsUp (references.map (refile rename)) r')
    (hids : ∀ x ∈ references, ∀ y ∈ references, x.evidenceId = y.evidenceId → x = y)
    (hr : ∀ x ∈ references, ∀ y ∈ references,
      rename x.coverageSegmentId = rename y.coverageSegmentId →
        x.coverageSegmentId = y.coverageSegmentId)
    (hcon : r'.classification.conflictingEvidence =
      r.classification.conflictingEvidence) : SameSummary rename r r' := by
  have hp : primaryOf (references.map (refile rename)) =
      (primaryOf references).map (refile rename) := filter_map
  have hconfigurations : configurationsOf (references.map (refile rename)) =
      (configurationsOf references).map (refile rename) := filter_map
  have hlen : (primaryOf (references.map (refile rename))).length =
      (primaryOf references).length := by rw [hp, length_map]
  have hslot : (primaryOf (references.map (refile rename))).map (·.l1Slot) =
      (primaryOf references).map (·.l1Slot) := by
    rw [hp, map_map]
    rfl
  have hfirst : r'.firstSeenSlot = r.firstSeenSlot := by
    have := h'.firstSeen
    rw [hslot, h.firstSeen, Option.some_inj] at this
    exact this.symm
  have hlast : r'.lastSeenSlot = r.lastSeenSlot := by
    have := h'.lastSeen
    rw [hslot, h.lastSeen, Option.some_inj] at this
    exact this.symm
  -- the latest evidence corresponds
  obtain ⟨latest, hlate, hid, hseg, ho⟩ := h.latest
  obtain ⟨_, hlate', hid', hseg', ho'⟩ := h'.latest
  obtain ⟨x, hx, rfl⟩ := IsLast.refile_iff.1 hlate'
  obtain rfl : x = latest := hids x hx.mem latest hlate.mem (hx.unique hlate)
  refine ⟨?_, ?_, ?_, ?_, ?_, hfirst, hlast, ?_, ?_, ?_, ?_, hcon⟩
  · rw [h'.operationCount, hlen, h.operationCount]
  · rw [h'.channelOperations, hlen, h.channelOperations]
  · rw [h'.recognizedL2Blocks, countEvidence_refile, h.recognizedL2Blocks]
  · rw [h'.rawInscriptions, countEvidence_refile, h.rawInscriptions]
  · rw [h'.evidenceCount, length_map, h.evidenceCount]
  · rw [h'.tip, h.tip, hlast]
  · rw [hid', hid]
    rfl
  · rw [hseg', hseg]
    rfl
  · refine origin_eq h'.replayed h.replayed ?_
    rw [ho, ho', hconfigurations]
    constructor
    · rintro ⟨_, hlast, hs⟩
      obtain ⟨y, hy, rfl⟩ := IsLast.refile_iff.1 hlast
      exact ⟨y, hy, hr y (mem_of_mem_filter hy.mem) x hx.mem hs⟩
    · rintro ⟨y, hy, hs⟩
      exact ⟨_, IsLast.refile_iff.2 ⟨y, hy, rfl⟩, congrArg rename hs⟩

end Evidence

/-! ### Conflicting inscriptions -/

/-- **An operation of a block counts** if it is the first of the block with its evidence id. -/
def Counted (ext : Externals) (block : CatalogL1Block) (o : ChannelObservation) : Prop :=
  ∃ pre post, blockObservations ext block = pre ++ o :: post ∧
    IsNew (pre.map (Prod.mk block)) (block, o)

/-- What is known of a channel says that it conflicts if an inscription that was new did. -/
theorem viewOf_conflicts (history : List Observed) (c : Text) :
    (∃ view ∈ viewOf history c, view.conflicts = true) ↔
    ∃ pre x post, history = pre ++ x :: post ∧ x.2.channelId = c ∧ IsNew pre x ∧
      x.2.conflicting = true := by
  induction history using List.reverseRecOn with
  | nil => simp [viewOf, viewFrom]
  | append_singleton history x ih =>
    have hsplit : (∃ pre y post, history ++ [x] = pre ++ y :: post ∧ y.2.channelId = c ∧
          IsNew pre y ∧ y.2.conflicting = true) ↔
        (∃ pre y post, history = pre ++ y :: post ∧ y.2.channelId = c ∧ IsNew pre y ∧
          y.2.conflicting = true) ∨
        (x.2.channelId = c ∧ IsNew history x) ∧ x.2.conflicting = true := by
      constructor
      · rintro ⟨pre, y, post, heq, hc, hnew, hcon⟩
        rcases eq_nil_or_concat post with rfl | ⟨post, _, rfl⟩
        · obtain ⟨rfl, hxy⟩ := append_inj' heq rfl
          obtain rfl := singleton_inj.1 hxy
          exact .inr ⟨⟨hc, hnew⟩, hcon⟩
        · rw [concat_eq_append, ← cons_append, ← append_assoc] at heq
          exact .inl ⟨pre, y, post, (append_inj' heq rfl).1, hc, hnew, hcon⟩
      · rintro (⟨pre, y, post, rfl, hrest⟩ | ⟨⟨hc, hnew⟩, hcon⟩)
        · exact ⟨pre, y, post ++ [x], by simp, hrest⟩
        · exact ⟨history, x, [], rfl, hc, hnew, hcon⟩
    have hflag : ∀ view : ChannelView, ∀ slot isLatest isLatestConfiguration,
        (view.observe slot x.2 isLatest isLatestConfiguration).conflicts =
          (view.conflicts || x.2.conflicting) := by
      intro view _ _ isLatestConfiguration
      unfold ChannelView.observe
      cases x.2.kind with
      | configuration => cases isLatestConfiguration <;> rfl
      | inscription =>
        cases view.committee with
        | none | some _ =>
          simp only
          split_ifs <;> rfl
      | operation => rfl
    rw [hsplit, ← ih, viewOf_concat, observeView]
    split_ifs with hcnt
    · simp only [Option.mem_def, Option.some.injEq, exists_eq_left', hflag, Bool.or_eq_true,
        and_iff_right hcnt]
      refine or_congr_left ?_
      cases viewOf history c with
      | none => simp [ChannelView.initial]
      | some _ => simp
    · simp only [hcnt, false_and, or_false]

/-- The blocks read have different slots. -/
theorem Run.eq_of_slot (hash : NoCollisions ext served)
    (h : Run ext served confirms metadata log s) :
    log.Nodup ∧ ∀ a ∈ log, ∀ b ∈ log, a.checkpoint.slot = b.checkpoint.slot → a = b := by
  obtain ⟨links, htop, hread⟩ := h.topology hash
  have hp := htop.pairwise_linkBlocks
  refine ⟨hread.nodup_iff.1 (hp.imp fun hlt heq => ?_), fun a ha b hb hslot => ?_⟩
  · rw [heq] at hlt
    exact lt_irrefl _ hlt
  · by_contra hne
    have hcases := List.Pairwise.forall_of_forall_of_flip (l := linkBlocks links)
      (R := fun a b => a ≠ b → a.checkpoint.slot ≠ b.checkpoint.slot)
      (fun _ _ hself => absurd rfl hself) (hp.imp fun hlt _ => hlt.ne)
      (hp.imp fun hlt _ => hlt.ne') (hread.mem_iff.2 ha) (hread.mem_iff.2 hb)
    exact hcases hne hslot

/-- Where an operation stands in a history. -/
theorem observations_eq_append {pre post : List Observed} {x : Observed}
    (h : observations ext log = pre ++ x :: post) :
    ∃ p q a b, log = p ++ x.1 :: q ∧ blockObservations ext x.1 = a ++ x.2 :: b ∧
      pre = observations ext p ++ a.map (Prod.mk x.1) := by
  induction log generalizing pre with
  | nil => simp [observations] at h
  | cons block rest ih =>
    have hcons : observations ext (block :: rest) =
        (blockObservations ext block).map (Prod.mk block) ++ observations ext rest :=
      flatMap_cons
    have hlate : ∀ as, observations ext rest = as ++ x :: post →
        pre = (blockObservations ext block).map (Prod.mk block) ++ as →
        ∃ p q a b, block :: rest = p ++ x.1 :: q ∧ blockObservations ext x.1 = a ++ x.2 :: b ∧
          pre = observations ext p ++ a.map (Prod.mk x.1) := fun as hrest hpre => by
      obtain ⟨p, q, a, b, rfl, hblk, rfl⟩ := ih hrest
      refine ⟨block :: p, q, a, b, rfl, hblk, ?_⟩
      rw [hpre, ← append_assoc]
      rfl
    rw [hcons, append_eq_append_iff] at h
    rcases h with ⟨as, hpre, hrest⟩ | ⟨bs, hblk, hbs⟩
    · exact hlate as hrest hpre
    · cases bs with
      | nil => exact hlate [] hbs.symm (by rw [hblk, append_nil, append_nil])
      | cons _ _ =>
        obtain ⟨rfl, -⟩ := cons_eq_cons.1 hbs
        obtain ⟨a, b, hsplit, rfl, hb⟩ := map_eq_append_iff.1 hblk
        obtain ⟨_, b, rfl, rfl, -⟩ := map_eq_cons_iff.1 hb
        exact ⟨[], rest, a, b, rfl, hsplit, rfl⟩

/-- **The new operations of a history are those that count in their blocks.** -/
theorem Run.isNew_iff (hash : NoCollisions ext served)
    (h : Run ext served confirms metadata log s) (x : Observed) :
    (∃ pre post, observations ext log = pre ++ x :: post ∧ IsNew pre x) ↔
      x.1 ∈ log ∧ Counted ext x.1 x.2 := by
  obtain ⟨hnodup, hslots⟩ := h.eq_of_slot hash
  constructor
  · rintro ⟨_, _, hsplit, hnew⟩
    obtain ⟨p, q, a, b, rfl, hblk, rfl⟩ := observations_eq_append hsplit
    exact ⟨by simp, a, b, hblk, fun y hy => hnew y (mem_append_right _ hy)⟩
  · rintro ⟨hx, a, b, hblk, hnew⟩
    obtain ⟨p, q, rfl⟩ := append_of_mem hx
    have hsplit : observations ext (p ++ x.1 :: q) = (observations ext p ++ a.map (Prod.mk x.1)) ++
        x :: (b.map (Prod.mk x.1) ++ observations ext q) := by
      have hcons : observations ext (x.1 :: q) =
          (blockObservations ext x.1).map (Prod.mk x.1) ++ observations ext q := flatMap_cons
      rw [observations_append, hcons, hblk]
      simp
    refine ⟨_, _, hsplit, fun y hy => ?_⟩
    rcases mem_append.1 hy with hy | hy
    · -- the same evidence in another block: that has another slot
      intro hid
      have hm := mem_observations.1 hy
      have href := (h.settled.consistent wellKinded_observations).same y
        (by simp [hsplit, hy]) x (by simp [hsplit]) hid
      have hslot : y.1.checkpoint.slot = x.1.checkpoint.slot :=
        congrArg ZoneEvidenceReference.l1Slot href
      have hs := hslots y.1 (by simp [hm.1]) x.1 hx hslot
      have hd := (nodup_append.1 hnodup).2.2
      exact hd y.1 hm.1 x.1 (by simp) hs
    · exact hnew y hy

/-- **When the evidence of a channel conflicts**: an inscription that counts was classified as
conflicting, or there are inscriptions of both kinds. -/
theorem Run.conflicting_iff (hash : NoCollisions ext served)
    (h : Run ext served confirms metadata log s) {zone : ZoneCatalogRecord}
    (hzone : zone ∈ s.zones) : zone.classification.conflictingEvidence = true ↔
      (∃ b ∈ log, ∃ o, Counted ext b o ∧ o.channelId = zone.channelId ∧ o.conflicting = true) ∨
        (0 < zone.classification.recognizedL2Blocks ∧ 0 < zone.classification.rawInscriptions) := by
  have hset := h.settled
  have hsums : SumsUp (channelEvidence s.evidence zone.channelId) zone := hset.sums zone hzone
  have hrel : Option.Rel (Shows s.evidence) (s.zones.find? zone.channelId)
      (viewOf (observations ext log) zone.channelId) := hset.zones zone.channelId
  rw [find?_of_mem hzone] at hrel
  obtain ⟨view, hview, hshow⟩ := optionRel_some hrel
  have hconflicts : view.conflicts = true ↔ ∃ b ∈ log, ∃ o, Counted ext b o ∧
      o.channelId = zone.channelId ∧ o.conflicting = true := by
    have hiff := viewOf_conflicts (observations ext log) zone.channelId
    simp only [hview, Option.mem_def, Option.some.injEq, exists_eq_left'] at hiff
    rw [hiff]
    constructor
    · rintro ⟨pre, x, post, hsplit, hc, hnew, hconflicting⟩
      obtain ⟨hb, hcounted⟩ := (h.isNew_iff hash x).1 ⟨pre, post, hsplit, hnew⟩
      exact ⟨x.1, hb, x.2, hcounted, hc, hconflicting⟩
    · rintro ⟨b, hb, o, hcounted, hc, hconflicting⟩
      obtain ⟨pre, post, hsplit, hnew⟩ := (h.isNew_iff hash (b, o)).2 ⟨hb, hcounted⟩
      exact ⟨pre, (b, o), post, hsplit, hc, hnew, hconflicting⟩
  rw [← hconflicts, hsums.recognizedL2Blocks, hsums.rawInscriptions]
  constructor
  · exact hshow.conflicting
  · rintro (hcon | ⟨hblks, hraw⟩)
    · exact hshow.conflicts hcon
    · exact hsums.conflicting hblks hraw

/-! ### Two runs over the same blocks -/

section Runs

variable {confirms' : CatalogSnapshot → CatalogRepairConfirmation → Prop}
  {metadata' : CatalogMetadata} {log' : List CatalogL1Block}

/-- The segments of one catalog are those of the other, renamed. -/
structure SameSegments (s s' : CatalogSnapshot) : Prop where
  ends : ∀ a ∈ s.segments, ∃ b ∈ s'.segments, b.segmentId = renameSegment s s' a.segmentId ∧
    b.floor = a.floor ∧ b.frontier = a.frontier
  onto : ∀ b ∈ s'.segments, ∃ a ∈ s.segments, renameSegment s s' a.segmentId = b.segmentId
  injective : ∀ a ∈ s.segments, ∀ b ∈ s.segments,
    renameSegment s s' a.segmentId = renameSegment s s' b.segmentId → a = b

theorem sameSegments_of_sameEnds (h : CoverageTopology s) (h' : CoverageTopology s')
    (hends : SameEnds s s') (hends' : SameEnds s' s) : SameSegments s s' := by
  refine ⟨fun a ha => ?_, fun b hb => ?_, fun a ha b hb heq => ?_⟩
  · obtain ⟨b, hb, hf, hfrontier⟩ := hends a ha
    exact ⟨b, hb, (renameSegment_eq h' ha hb hf).symm, hf, hfrontier⟩
  · obtain ⟨a, ha, hf, -⟩ := hends' b hb
    exact ⟨a, ha, renameSegment_eq h' ha hb hf.symm⟩
  · obtain ⟨_, hx, hxfloor, -⟩ := hends a ha
    obtain ⟨_, hy, hyfloor, -⟩ := hends b hb
    rw [renameSegment_eq h' ha hx hxfloor, renameSegment_eq h' hb hy hyfloor] at heq
    obtain rfl := eq_of_key_eq hx hy heq
    have hf : a.floor = b.floor := hxfloor.symm.trans hyfloor
    exact h.eq_of_slot ha hb ⟨le_rfl, h.ranges a ha⟩ (hf ▸ ⟨le_rfl, hf ▸ h.ranges b hb⟩)

/-- A channel has a record if it has evidence. -/
theorem Run.find?_zones_eq_none (h : Run ext served confirms metadata log s) (c : Text) :
    s.zones.find? c = none ↔ channelEvidence s.evidence c = [] := by
  constructor
  · intro hn
    rw [eq_nil_iff_forall_not_mem]
    intro e he
    obtain ⟨he, hc⟩ := mem_channelEvidence.1 he
    obtain ⟨zone, hzone, hid⟩ := h.valid.known e he
    exact Table.find?_eq_none.1 hn zone hzone (hid.trans hc)
  · intro hnil
    rw [Table.find?_eq_none]
    intro zone hzone hc
    obtain ⟨latest, hlate, -⟩ := (h.settled.sums zone hzone).latest
    have hm : latest ∈ channelEvidence s.evidence zone.channelId := hlate.mem
    rw [hc, hnil] at hm
    cases hm

section

variable (hash : NoCollisions ext served)
  (h : Run ext served confirms metadata log s) (hash' : NoCollisions ext served')
  (h' : Run ext served' confirms' metadata' log' s') (hlog : ∀ b, b ∈ log ↔ b ∈ log')

include hash h hash' h' hlog

/-- **Two runs over the same blocks have the same segments**, whatever they are called. -/
theorem Run.sameSegments :
    CoverageTopology s' ∧ SameEnds s s' ∧ SameSegments s s' := by
  obtain ⟨_, htop, hread⟩ := h.topology hash
  obtain ⟨_, htop', hread'⟩ := h'.topology hash'
  have hperm : log.Perm log' :=
    (perm_ext_iff_of_nodup (h.eq_of_slot hash).1 (h'.eq_of_slot hash').1).2 hlog
  have hblks := htop.map_blocks_eq htop' h.gapsApart h'.gapsApart
    (hread.trans (hperm.trans hread'.symm))
  have hends := htop.sameEnds htop' hblks
  exact ⟨htop'.coverageTopology, hends, sameSegments_of_sameEnds htop.coverageTopology
    htop'.coverageTopology hends (htop'.sameEnds htop hblks.symm)⟩

/-- **Two runs over the same blocks agree on what is computed from the evidence.** -/
theorem Run.sameSummary (c : Text) :
    Option.Rel (SameSummary (renameSegment s s')) (s.zones.find? c) (s'.zones.find? c) := by
  obtain ⟨htop', hends, hseg⟩ := h.sameSegments hash hash' h' hlog
  have hs : ∀ e, HasEvidence s.evidence e ↔ HasEvidence s'.evidence e := fun _ => by
    rw [h.evidence.2, h'.evidence.2]
    exact exists_congr fun b => and_congr_left fun _ => hlog b
  have he : channelEvidence s'.evidence c = (channelEvidence s.evidence c).map
      (ZoneEvidenceReference.refile (renameSegment s s')) := by
    rw [evidence_eq_refile h.valid h'.valid htop' hends hs, channelEvidence_refile]
  have hn := h.find?_zones_eq_none c
  have hnone' := h'.find?_zones_eq_none c
  rw [he, map_eq_nil_iff, ← hn] at hnone'
  cases hzone : s.zones.find? c with
  | none =>
    rw [hnone'.2 hzone]
    exact .none
  | some zone =>
    obtain ⟨zone', hzone'⟩ : ∃ zone', s'.zones.find? c = some zone' := by
      rw [← Option.ne_none_iff_exists', ne_eq, hnone', hzone]
      simp
    obtain ⟨hm, rfl⟩ := find?_eq_some.1 hzone
    obtain ⟨hmem', hid'⟩ := find?_eq_some.1 hzone'
    have hsums : SumsUp (channelEvidence s.evidence zone.channelId) zone :=
      h.settled.sums zone hm
    have hsums' : SumsUp (channelEvidence s'.evidence zone'.channelId) zone' :=
      h'.settled.sums zone' hmem'
    rw [hid', he] at hsums'
    rw [hzone']
    refine .some (hsums.sameSummary hsums' (fun x hx y hy hid => ?_) (fun x hx y hy hid => ?_) ?_)
    · exact eq_of_key_eq (mem_channelEvidence.1 hx).1 (mem_channelEvidence.1 hy).1 hid
    · -- different segments have different names
      obtain ⟨a, ha, haid, -⟩ := (h.valid.evidence x (mem_channelEvidence.1 hx).1).segment
      obtain ⟨b, hb, hbid, -⟩ := (h.valid.evidence y (mem_channelEvidence.1 hy).1).segment
      rw [← haid, ← hbid] at hid ⊢
      rw [hseg.injective a ha b hb hid]
    · rw [Bool.eq_iff_iff, h.conflicting_iff hash hm, h'.conflicting_iff hash' hmem',
        hsums.recognizedL2Blocks, hsums.rawInscriptions, hsums'.recognizedL2Blocks,
        hsums'.rawInscriptions, countEvidence_refile, countEvidence_refile, hid']
      simp only [hlog]

end

/-- **What a record says of its evidence is a function of the evidence**: its counts and slots,
its latest evidence and its provenance sum it up, and its evidence conflicts if an inscription
that counts was classified as conflicting, or if there are inscriptions of both kinds. So two
catalogs that have read the same blocks, in any orders, agree on all of this, up to the names of
their segments. -/
theorem run_zones_ofEvidence (hash : NoCollisions ext served)
    (h : Run ext served confirms metadata log s) :
    (∀ zone ∈ s.zones, SumsUp (channelEvidence s.evidence zone.channelId) zone ∧
      (zone.classification.conflictingEvidence = true ↔
        (∃ b ∈ log, ∃ o, Counted ext b o ∧ o.channelId = zone.channelId ∧ o.conflicting = true) ∨
          (0 < zone.classification.recognizedL2Blocks ∧ 0 < zone.classification.rawInscriptions))) ∧
    ∀ (served' : Set CatalogL1Block)
      (confirms' : CatalogSnapshot → CatalogRepairConfirmation → Prop)
      (metadata' : CatalogMetadata) (log' : List CatalogL1Block) (s' : CatalogSnapshot),
      NoCollisions ext served' → Run ext served' confirms' metadata' log' s' →
      (∀ b, b ∈ log ↔ b ∈ log') →
      SameSegments s s' ∧ ∀ c, Option.Rel (SameSummary (renameSegment s s')) (s.zones.find? c)
        (s'.zones.find? c) :=
  ⟨fun zone hzone => ⟨h.settled.sums zone hzone, h.conflicting_iff hash hzone⟩,
    fun _ _ _ _ _ hash' h' hlog =>
      ⟨(h.sameSegments hash hash' h' hlog).2.2, h.sameSummary hash hash' h' hlog⟩⟩

/-- **The evidence does not depend on the order of reading.** It is that of the blocks read, and
for the same blocks it differs only in the names of segments. -/
theorem run_evidence_confluent (ext : Externals) :
    (∀ served confirms metadata log s, Run ext served confirms metadata log s →
      ∀ e, HasEvidence s.evidence e ↔ ∃ b ∈ log, e ∈ blockEvidence ext [] b) ∧
    ∀ served confirms metadata log s served' confirms' metadata' log' s',
      NoCollisions ext served → Run ext served confirms metadata log s →
      NoCollisions ext served' → Run ext served' confirms' metadata' log' s' →
      (∀ b, b ∈ log ↔ b ∈ log') →
      s'.evidence = s.evidence.modifyAll (ZoneEvidenceReference.refile (renameSegment s s'))
        (refile_evidenceId _) := by
  refine ⟨fun _ _ _ _ _ h => h.evidence.2, fun _ _ _ _ _ _ _ _ _ _ hash h hash' h' hlog => ?_⟩
  obtain ⟨htopology, hends, -⟩ := h.sameSegments hash hash' h' hlog
  refine evidence_eq_refile h.valid h'.valid htopology hends fun _ => ?_
  rw [h.evidence.2, h'.evidence.2]
  exact exists_congr fun b => and_congr_left fun _ => hlog b

/-- A run over a list of blocks with different slots, by the slots that were read. -/
theorem Run.mem_log_iff {chain : List CatalogL1Block} (hash : NoCollisions ext {b | b ∈ chain})
    (h : Run ext {b | b ∈ chain} confirms metadata log s)
    (hchain : (chain.map (·.checkpoint.slot)).Nodup)
    (hread : ∀ slot ∈ chain.map (·.checkpoint.slot), slot ∈ log.map (·.checkpoint.slot))
    (b : CatalogL1Block) : b ∈ log ↔ b ∈ chain := by
  obtain ⟨_, htop, hlin⟩ := h.topology hash
  have hs : ∀ b ∈ log, b ∈ chain := fun b hb => by
    obtain ⟨l, hl, hbl⟩ := mem_flatMap.1 (hlin.mem_iff.2 hb)
    exact htop.served l hl b hbl
  refine ⟨hs b, fun hb => ?_⟩
  obtain ⟨x, hx, hslot⟩ := mem_map.1 (hread _ (mem_map_of_mem hb))
  rwa [← inj_on_of_nodup_map hchain (hs x hx) hb hslot]

/-- The blocks of the sample chain are read in order, and with a gap repaired. -/
theorem sampleChain_runs : ∃ log s log' s', NoCollisions sampleExternals {b | b ∈ sampleChain} ∧
    Run sampleExternals {b | b ∈ sampleChain} (fun _ _ => True) sampleMetadata log s ∧
    Run sampleExternals {b | b ∈ sampleChain} (fun _ _ => True) sampleMetadata log' s' ∧
    (∀ b, b ∈ log ↔ b ∈ log') ∧ log ≠ log' ∧ s.zones.size = 1 := by
  have hash : NoCollisions sampleExternals {b | b ∈ sampleChain} :=
    noCollisions_of_list (by decide +kernel)
  -- what is looked at in the two catalogs
  obtain ⟨log, s, hrun, heq⟩ := exists_run_of_replay sampleExternals {b | b ∈ sampleChain}
    sampleMetadata sampleSequentialRequests
    (fun r => (r.1.map (·.checkpoint.slot), r.2.zones.size)) (b := ([0, 4, 9], 1)) (by decide)
    (blocks_sampleSequentialOf _ _ _) (by decide +kernel)
  obtain ⟨hslots, hsize⟩ := Prod.mk.inj heq
  obtain ⟨log', s', hrun', hslots'⟩ := exists_run_of_replay sampleExternals {b | b ∈ sampleChain}
    sampleMetadata sampleRepairRequests (fun r => r.1.map (·.checkpoint.slot)) (b := [0, 9, 4])
    (by decide)
    (blocks_sampleRepairOf _ _ _) (by decide +kernel)
  have hnodup : (sampleChain.map (·.checkpoint.slot)).Nodup := by decide
  refine ⟨log, s, log', s', hash, hrun, hrun', fun _ => ?_, fun heq => ?_, hsize⟩
  · rw [hrun.mem_log_iff hash hnodup (by rw [hslots]; decide),
      hrun'.mem_log_iff hash hnodup (by rw [hslots']; decide)]
  · rw [heq, hslots'] at hslots
    exact absurd hslots (by decide)

/-- The records of both catalogs sum up their evidence, and agree. -/
theorem run_zones_ofEvidence_sample :
    ∃ log s log' s', NoCollisions sampleExternals {b | b ∈ sampleChain} ∧
      Run sampleExternals {b | b ∈ sampleChain} (fun _ _ => True) sampleMetadata log s ∧
      Run sampleExternals {b | b ∈ sampleChain} (fun _ _ => True) sampleMetadata log' s' ∧
      log ≠ log' ∧ s.zones.size = 1 ∧
      (∀ zone ∈ s.zones, SumsUp (channelEvidence s.evidence zone.channelId) zone) ∧
      SameSegments s s' ∧
      ∀ c, Option.Rel (SameSummary (renameSegment s s')) (s.zones.find? c) (s'.zones.find? c) := by
  obtain ⟨log, s, log', s', hash, hrun, hrun', hlog, hne, hsize⟩ := sampleChain_runs
  obtain ⟨hsums, hagree⟩ := run_zones_ofEvidence hash hrun
  obtain ⟨hsegments, hzones⟩ := hagree _ _ _ log' s' hash hrun' hlog
  exact ⟨log, s, log', s', hash, hrun, hrun', hne, hsize, fun zone hzone => (hsums zone hzone).1,
    hsegments, hzones⟩

/-- Both catalogs hold the evidence of the chain, under other segments. -/
theorem run_evidence_confluent_sample : ∃ log s log' s',
    Run sampleExternals {b | b ∈ sampleChain} (fun _ _ => True) sampleMetadata log s ∧
    Run sampleExternals {b | b ∈ sampleChain} (fun _ _ => True) sampleMetadata log' s' ∧
    log ≠ log' ∧ s.zones.size = 1 ∧
    (∀ e, HasEvidence s.evidence e ↔ ∃ b ∈ log, e ∈ blockEvidence sampleExternals [] b) ∧
    s'.evidence = s.evidence.modifyAll (ZoneEvidenceReference.refile (renameSegment s s'))
      (refile_evidenceId _) := by
  obtain ⟨log, s, log', s', hash, hrun, hrun', hlog, hne, hsize⟩ := sampleChain_runs
  obtain ⟨hevidence, hagree⟩ := run_evidence_confluent sampleExternals
  exact ⟨log, s, log', s', hrun, hrun', hne, hsize, hevidence _ _ _ _ _ hrun,
    hagree _ _ _ _ _ _ _ _ _ _ hash hrun hash hrun' hlog⟩

/-- A block with two transactions of the same hash: the first inscribes nothing, the second a
sequencer block whose header states another hash. -/
def sampleTwice : CatalogL1Block :=
  sampleBlockWith 0 '0' 'f' [sampleTransaction '0' [sampleInscription 'c' '1' "A"],
    sampleTransaction '0' [sampleInscriptionOf 'c' '1' "A" [1]]]

/-- **An inscription that was classified as conflicting and leaves no trace**: it has the evidence
id of another one, which came first. -/
theorem run_zones_conflicting_uncounted :
    NoCollisions sampleExternals {b | b ∈ [sampleTwice]} ∧ ∃ log s,
      Run sampleExternals {b | b ∈ [sampleTwice]} (fun _ _ => True) sampleMetadata log s ∧
      ∃ zone ∈ s.zones, ¬ (zone.classification.conflictingEvidence = true ↔
        (∃ b ∈ log, ∃ o ∈ blockObservations sampleExternals b,
          o.channelId = zone.channelId ∧ o.conflicting = true) ∨
        (0 < zone.classification.recognizedL2Blocks ∧
          0 < zone.classification.rawInscriptions)) := by
  have hash : NoCollisions sampleExternals {b | b ∈ [sampleTwice]} :=
    noCollisions_of_list (by decide +kernel)
  obtain ⟨log, s, hrun, heq⟩ := exists_run_of_replay sampleExternals {b | b ∈ [sampleTwice]}
    sampleMetadata
    [.prepare ⟨9, sampleId '9'⟩ sampleContext, .page [⟨sampleTwice, sampleSnapshot⟩] sampleContext]
    (fun r => (r.1.map (·.checkpoint.slot), r.2.zones.records.map fun zone =>
      (zone.channelId, zone.classification.conflictingEvidence)))
    (b := ([0], [(sampleId 'c', false)])) (by decide) (by simp [Request.blocks]) (by decide +kernel)
  obtain ⟨hslots, hzones⟩ := Prod.mk.inj heq
  obtain ⟨zone, hzone, hfields⟩ := List.map_eq_singleton_iff.1 hzones
  obtain ⟨hid, hflag⟩ := Prod.mk.inj hfields
  have hread : sampleTwice ∈ log := by
    rw [hrun.mem_log_iff hash (by decide) (by rw [hslots]; decide)]
    exact List.mem_singleton_self _
  have hzone' : zone ∈ s.zones := mem_records.1 (hzone ▸ List.mem_singleton_self _)
  refine ⟨hash, log, s, hrun, zone, hzone', fun hiff => ?_⟩
  rw [hid, hflag] at hiff
  obtain ⟨o, ho, hconflicting⟩ : ∃ o ∈ blockObservations sampleExternals sampleTwice,
      o.channelId = sampleId 'c' ∧ o.conflicting = true := by decide +kernel
  exact Bool.false_ne_true (hiff.2 (.inl ⟨sampleTwice, hread, o, ho, hconflicting⟩))

end Runs

end LogosInspector.Catalog
