import LogosInspector.Catalog.Parsed
import LogosInspector.Catalog.Reorder

/-!
# What is proposed passes the checks of the store

The store checks every batch, record by record and then as part of the whole catalog. This file
shows, check by check, that the batches the engine proposes on a reachable catalog pass: the ids
are well formed and the segments and gaps fit together (`Topology.segmentOk`, `Topology.gapIn`),
evidence is filed under a segment that covers its slot (`Files.evidenceIn`), the frontier does
not run ahead of the cursor nor the cursor ahead of the target (`Effect.headOk`), and the
changes of a batch are changes of different records (`Proposes.batchShape`).

One check is left out, that of the committees: that one can fail
(`Catalog.Acceptance`).
-/

namespace LogosInspector.Catalog

open List Table Option

/-! ### Segments and gaps -/

/-- The ids of the blocks served are canonical. -/
def ServesHex (served : Set CatalogL1Block) : Prop := ∀ b ∈ served, HexCheckpoint b.checkpoint

/-- A chain that ends at the slot where it starts is one block. -/
theorem ChainEnds.eq_of_slot {blocks : List CatalogL1Block} {first last : CatalogBlockCheckpoint}
    (h : ChainEnds blocks first last) (hslot : last.slot = first.slot) : last = first := by
  cases blocks with
  | nil => exact absurd rfl h.ne_nil
  | cons _ rest =>
    obtain rfl := some_inj.1 h.head
    rcases eq_nil_or_concat rest with rfl | ⟨_, x, rfl⟩
    · exact (some_inj.1 h.last).symm
    · -- a later block has a greater slot
      have hlast := h.last
      rw [concat_eq_append, ← cons_append, getLast?_concat, map_some, some_inj] at hlast
      have hlt := (pairwise_cons.1 h.chain.pairwise_slot).1 x (by simp)
      rw [hlast] at hlt
      omega

variable {ext : Externals} {served : Set CatalogL1Block} {s : CatalogSnapshot} {links : List Link}

section Coverage

variable (h : Topology ext served s links)

include h

variable (hhex : ServesHex served)

include hhex

theorem Topology.link_hex {l : Link} (hl : l ∈ links) :
    HexCheckpoint l.segment.floor ∧ IsHexId l.segment.frontier.blockId := by
  obtain ⟨_, hends, hlast⟩ := h.covered l hl
  obtain ⟨x, hx, hfirst⟩ := hends.first_mem
  obtain ⟨y, hy, rfl⟩ := hends.last_mem
  rw [← hlast, ← hfirst]
  exact ⟨hhex x (h.served l hl x hx), (hhex y (h.served l hl y hy)).1⟩

/-- **The segments pass their check**, if their ids do. -/
theorem Topology.segmentOk
    (hids : ∀ a ∈ s.segments, IsLocalId a.segmentId) : ∀ a ∈ s.segments, SegmentOk a := by
  intro a ha
  obtain ⟨l, hl, rfl⟩ := (h.segments a).1 ha
  obtain ⟨hfloor, hf⟩ := h.link_hex hhex hl
  refine ⟨hids _ ha, hfloor.1, hfloor.2, hf, (h.covered l hl).range, fun hslot => ?_⟩
  obtain ⟨_, hends, hlast⟩ := h.covered l hl
  rw [← hlast] at hslot ⊢
  rw [hends.eq_of_slot hslot]
  rfl

/-- **The gaps pass their check**, if their ids do. -/
theorem Topology.gapIn (hids : ∀ a ∈ s.segments, IsLocalId a.segmentId)
    (hgapIds : ∀ gap ∈ s.gaps, IsLocalId gap.gapId) : ∀ gap ∈ s.gaps, GapIn s.segments gap := by
  intro gap hgap
  obtain ⟨b, hb, hbgap⟩ := (h.gaps gap).1 hgap
  obtain ⟨_, a, _, hlin, habove, hjoin⟩ := h.exists_above hb hbgap
  have ha : a ∈ links := by simp [hlin]
  have hamem : a.segment ∈ s.segments := (h.segments _).2 ⟨a, ha, rfl⟩
  have hbmem : b.segment ∈ s.segments := (h.segments _).2 ⟨b, hb, rfl⟩
  obtain ⟨hfloor, -⟩ := h.link_hex hhex hb
  refine ⟨⟨hgapIds gap hgap, ?_, ?_, ?_, ?_, ?_, fun hs => ?_, ?_⟩,
    ⟨a.segment, hamem, hjoin.lowerId.symm, hjoin.lowerCheckpoint.symm⟩,
    ⟨b.segment, hbmem, hjoin.upperId.symm, hjoin.upperBlock.symm, hjoin.parentId.symm⟩⟩
  · exact hjoin.lowerId ▸ hids _ hamem
  · exact hjoin.upperId ▸ hids _ hbmem
  · exact hjoin.lowerCheckpoint ▸ (h.link_hex hhex ha).2
  · exact hjoin.upperBlock ▸ hfloor.1
  · exact hjoin.parentId ▸ hfloor.2
  · -- a segment does not lie above itself
    rw [hjoin.lowerId, hjoin.upperId] at hs
    obtain rfl := h.eq_of_segmentId ha hb hs
    exact absurd (h.covered a ha).range habove.1.not_ge
  · rw [hjoin.lowerCheckpoint, hjoin.upperBlock]
    exact habove.1

end Coverage

variable {confirms : CatalogSnapshot → CatalogRepairConfirmation → Prop}
  {blocks : List CatalogL1Block} {s' : CatalogSnapshot} {context : CatalogEngineContext}

section Ids

variable (he : Effect ext confirms s blocks context s')

include he

/-- A segment after a step has an id it had before, or that of a block that was read. -/
theorem Effect.segmentId {a : CoverageSegment}
    (ha : a ∈ s'.segments) : (∃ b ∈ s.segments, b.segmentId = a.segmentId) ∨
      ∃ b ∈ blocks, a.segmentId = segmentIdForFloor b.checkpoint := by
  -- a segment that is written: the others stay
  have hi : ∀ x : CoverageSegment, s'.segments = s.segments.insert x → a ∈ s'.segments →
      a = x ∨ ∃ b ∈ s.segments, b.segmentId = a.segmentId := by
    intro _ heq hm
    rw [heq, mem_insert] at hm
    rcases hm with rfl | ⟨hm, -⟩
    · exact .inl rfl
    · exact .inr ⟨a, hm, rfl⟩
  have hfirst : ∀ first last, ChainEnds blocks first last → ∃ b ∈ blocks,
      segmentIdForFloor first = segmentIdForFloor b.checkpoint := by
    intro first last hends
    obtain ⟨b, hb, rfl⟩ := hends.first_mem
    exact ⟨b, hb, rfl⟩
  cases he with
  | retarget _ he =>
    rw [he.segments, mem_modifyAll] at ha
    obtain ⟨b, hb, rfl⟩ := ha
    exact .inl ⟨b, hb, rfl⟩
  | extend seg _ _ _ _ _ he =>
    rcases hi _ he.segments ha with rfl | hold
    · exact .inl ⟨seg, he.active.mem, rfl⟩
    · exact .inl hold
  | start first last _ _ he | openGap _ first last _ _ _ _ he | openPrefix first last _ _ he =>
    rcases hi _ he.segments ha with rfl | hold
    · exact .inr (hfirst first last he.chain)
    · exact .inl hold
  | repairPrefix _ seg _ _ _ _ he =>
    rcases hi _ he.segments ha with rfl | hold
    · exact .inl ⟨seg, he.mem, rfl⟩
    · exact .inl hold
  | merge _ lower _ _ _ _ _ he =>
    rw [he.segments, mem_erase, mem_insert] at ha
    rcases ha.1 with rfl | ⟨hm, -⟩
    · exact .inl ⟨lower, he.lowerMem, rfl⟩
    · exact .inl ⟨a, hm, rfl⟩
  | shrink _ upper _ _ _ _ _ he =>
    rcases hi _ he.segments ha with rfl | hold
    · exact .inl ⟨upper, he.upperMem, rfl⟩
    · exact .inl hold
  | backOff _ _ _ _ he => exact .inl ⟨a, he.segments ▸ ha, rfl⟩

/-- A gap after a step has an id it had before, or that of a new gap. -/
theorem Effect.gapId {gap : CoverageGap}
    (hgap : gap ∈ s'.gaps) : (∃ g ∈ s.gaps, g.gapId = gap.gapId) ∨
      ∃ lower upper, gap.gapId = gapIdForBoundary ext lower upper := by
  have hi : ∀ x : CoverageGap, s'.gaps = s.gaps.insert x → gap = x ∨
      ∃ g ∈ s.gaps, g.gapId = gap.gapId := by
    intro _ heq
    rw [heq, mem_insert] at hgap
    rcases hgap with rfl | ⟨hm, -⟩
    · exact .inl rfl
    · exact .inr ⟨gap, hm, rfl⟩
  cases he with
  | retarget _ he | extend _ _ _ _ _ _ he | start _ _ _ _ he | openPrefix _ _ _ _ he
  | repairPrefix _ _ _ _ _ _ he => exact .inl ⟨gap, he.gaps ▸ hgap, rfl⟩
  | openGap _ first _ _ c _ _ he =>
    rcases hi _ he.gaps with rfl | hold
    · exact .inr ⟨c, first, rfl⟩
    · exact .inl hold
  | merge _ _ _ _ _ _ _ he =>
    rw [he.gaps, mem_modifyAll] at hgap
    obtain ⟨g, hg, rfl⟩ := hgap
    exact .inl ⟨g, (mem_erase.1 hg).1, (reattachGap_gapId _ _ g).symm⟩
  | shrink old _ _ _ _ _ _ he | backOff old _ _ _ he =>
    rcases hi _ he.gaps with rfl | hold
    · exact .inl ⟨old, he.gapMem, rfl⟩
    · exact .inl hold

end Ids

/-! ### Evidence -/

/-- **Where a step files evidence**: old evidence stays where it was, with segments renamed by
`move`, and that of the blocks read goes to the segment `segmentId`, which covers them. -/
structure Files (ext : Externals) (s : CatalogSnapshot) (blocks : List CatalogL1Block)
    (s' : CatalogSnapshot) (move : Text → Text) (segmentId : Text) : Prop where
  grown : ∀ a ∈ s.segments, ∃ a' ∈ s'.segments, a'.segmentId = move a.segmentId ∧
    a'.floor.slot ≤ a.floor.slot ∧ a.frontier.slot ≤ a'.frontier.slot
  covers : ∀ b ∈ blocks, ∃ a' ∈ s'.segments, a'.segmentId = segmentId ∧
    a'.floor.slot ≤ b.checkpoint.slot ∧ b.checkpoint.slot ≤ a'.frontier.slot
  evidence : ∀ x, x ∈ s'.evidence ↔ (∃ r ∈ s.evidence, r.refile move = x) ∨
    ∃ b ∈ blocks, x ∈ blockEvidence ext segmentId b

/-- A segment that is written in place of one with the same id, or of none. -/
theorem grown_insert {x : CoverageSegment} (hseg : s'.segments = s.segments.insert x)
    (hx : ∀ a ∈ s.segments, a.segmentId = x.segmentId →
      x.floor.slot ≤ a.floor.slot ∧ a.frontier.slot ≤ x.frontier.slot) :
    ∀ a ∈ s.segments, ∃ a' ∈ s'.segments, a'.segmentId = id a.segmentId ∧
      a'.floor.slot ≤ a.floor.slot ∧ a.frontier.slot ≤ a'.frontier.slot := by
  intro a ha
  by_cases hid : a.segmentId = x.segmentId
  · exact ⟨x, hseg ▸ mem_insert_self _ _, hid.symm, hx a ha hid⟩
  · exact ⟨a, hseg ▸ mem_insert.2 (.inr ⟨ha, hid⟩), rfl, le_rfl, le_rfl⟩

theorem refile_id (e : ZoneEvidenceReference) : e.refile id = e := rfl

theorem Reads.files {segmentId : Text}
    (h : Reads ext (WorkingCatalog.fromSnapshot s) segmentId blocks context s')
    (x : ZoneEvidenceReference) : x ∈ s'.evidence ↔ (∃ r ∈ s.evidence, r.refile id = x) ∨
      ∃ b ∈ blocks, x ∈ blockEvidence ext segmentId b := by
  rw [(h.evidence (cachesOk_fromSnapshot s)).2]
  refine or_congr_left ?_
  simp only [refile_id, exists_eq_right]
  rfl

theorem evidence_unread (he : s'.evidence = s.evidence) (x : ZoneEvidenceReference) :
    x ∈ s'.evidence ↔ (∃ r ∈ s.evidence, r.refile id = x) ∨
      ∃ b ∈ ([] : List CatalogL1Block), x ∈ blockEvidence ext [] b := by
  simp [he, refile_id]

theorem mem_of_eq_insert {x : CoverageSegment} (h : s'.segments = s.segments.insert x) :
    x ∈ s'.segments := h ▸ mem_insert_self _ _

theorem moveEvidence_eq_refile (old new : Text) (e : ZoneEvidenceReference) :
    moveEvidence old new e =
      e.refile fun segmentId => if segmentId = old then new else segmentId := by
  unfold moveEvidence ZoneEvidenceReference.refile
  simp only
  split_ifs <;> rfl

/-- Closing a gap files the evidence of its upper segment under the lower one. -/
theorem Merges.files {gap : CoverageGap} {lower upper : CoverageSegment}
    {confirmed : CatalogBlockCheckpoint} {target : CatalogBlockReference} {f : CatalogFrontier}
    {v : WorkingCatalog} (hs : ValidSnapshot s)
    (he : Merges ext confirms s blocks context s' gap lower upper confirmed target f v) :
    Files ext s blocks s' (fun segmentId =>
      if segmentId = upper.segmentId then lower.segmentId else segmentId) lower.segmentId := by
  have hgap := hs.gaps gap he.gapMem
  have hlower : lower.frontier = gap.lowerCheckpoint := by
    obtain ⟨x, hx, hid, hends⟩ := hgap.lower
    rwa [eq_of_key_eq he.lowerMem hx (he.lowerId.trans hid.symm)]
  have hupper : upper.floor.slot = gap.upperBlock.slot := by
    obtain ⟨_, hx, hid, hends, -⟩ := hgap.upper
    rw [eq_of_key_eq he.upperMem hx (he.upperId.trans hid.symm), ← hends]
    rfl
  have hslot := congrArg CatalogBlockReference.slot hlower
  have hasc := hgap.ok.ascending
  have hlowerRange := (hs.segments lower he.lowerMem).range
  have hu := (hs.segments upper he.upperMem).range
  have hne : lower.segmentId ≠ upper.segmentId := by
    rw [he.lowerId, he.upperId]
    exact hgap.ok.distinct
  -- the one segment that both become
  obtain ⟨merged, hm, hid, hfloor, hf⟩ : ∃ merged ∈ s'.segments,
      merged.segmentId = lower.segmentId ∧ merged.floor = lower.floor ∧
        merged.frontier = upper.frontier := by
    refine ⟨⟨lower.segmentId, lower.floor, upper.frontier, upper.reachesTargetLib⟩,
      ?_, rfl, rfl, rfl⟩
    rw [he.segments, mem_erase]
    exact ⟨mem_insert_self _ _, hne⟩
  refine ⟨fun a ha => ?_, fun _ hb => ?_, fun _ => ?_⟩
  · by_cases hup : a.segmentId = upper.segmentId
    · obtain rfl := eq_of_key_eq ha he.upperMem hup
      refine ⟨merged, hm, ?_, ?_, ?_⟩
      · rw [if_pos rfl, hid]
      · rw [hfloor]
        omega
      · rw [hf]
    · rw [if_neg hup]
      by_cases hlow : a.segmentId = lower.segmentId
      · obtain rfl := eq_of_key_eq ha he.lowerMem hlow
        refine ⟨merged, hm, hid, ?_, ?_⟩
        · rw [hfloor]
        · rw [hf]
          omega
      · refine ⟨a, ?_, rfl, le_rfl, le_rfl⟩
        rw [he.segments, mem_erase]
        exact ⟨mem_insert.2 (.inr ⟨ha, hlow⟩), hup⟩
  · obtain ⟨_, _, hends, -, _, _, -⟩ := he.filled (ne_nil_of_mem hb)
    have hb' := hends.slot_le hb
    refine ⟨merged, hm, hid, ?_, ?_⟩
    · rw [hfloor]
      omega
    · rw [hf]
      omega
  · obtain ⟨hv, hmove⟩ := (cachesOk_fromSnapshot s).reassignSegment he.moved
    rw [(he.reads.evidence hv).2, hmove, mem_modifyAll]
    refine or_congr_left (exists_congr fun _ => and_congr_right fun _ => ?_)
    rw [moveEvidence_eq_refile]

/-- **Every step files evidence where it belongs.** -/
theorem Effect.files (hs : ValidSnapshot s) (he : Effect ext confirms s blocks context s') :
    ∃ move segmentId, Files ext s blocks s' move segmentId := by
  cases he with
  | retarget target he =>
    obtain rfl := he.empty
    refine ⟨id, [], fun a ha => ⟨retargetSegment target a, ?_, rfl, le_rfl, le_rfl⟩, by simp,
      evidence_unread he.evidence⟩
    rw [he.segments, mem_modifyAll]
    exact ⟨a, ha, rfl⟩
  | extend seg _ last _ _ _ he =>
    have hrange := (hs.segments seg he.active.mem).range
    have hlast := he.chain.range
    have habove := he.above
    have hends := congrArg CatalogBlockReference.slot he.active.ends
    refine ⟨id, seg.segmentId, grown_insert he.segments fun a ha hid => ?_, fun b hb => ?_,
      he.reads.files⟩
    · obtain rfl := eq_of_key_eq ha he.active.mem hid
      change a.floor.slot ≤ a.floor.slot ∧ a.frontier.slot ≤ last.slot
      omega
    · have hb' := he.chain.slot_le hb
      refine ⟨_, mem_of_eq_insert he.segments, rfl, ?_⟩
      change seg.floor.slot ≤ _ ∧ _ ≤ last.slot
      omega
  | start first _ _ _ he | openPrefix first _ _ _ he =>
    refine ⟨id, segmentIdForFloor first, fun a ha => ?_, fun b hb => ?_, he.reads.files⟩
    · rw [← mem_records, he.noSegments] at ha
      cases ha
    · exact ⟨_, mem_of_eq_insert he.segments, rfl, he.chain.slot_le hb⟩
  | openGap _ first _ _ _ _ _ he =>
    refine ⟨id, segmentIdForFloor first, grown_insert he.segments fun a ha hid => ?_,
      fun b hb => ?_, he.reads.files⟩
    · exact absurd hid (he.fresh a ha)
    · exact ⟨_, mem_of_eq_insert he.segments, rfl, he.chain.slot_le hb⟩
  | repairPrefix _ seg first _ _ _ he =>
    have hrange := (hs.segments seg he.mem).range
    have hlast := he.chain.range
    have hbelow := he.below
    refine ⟨id, seg.segmentId, grown_insert he.segments fun a ha hid => ?_, fun b hb => ?_,
      he.reads.files⟩
    · obtain rfl := eq_of_key_eq ha he.mem hid
      change first.slot ≤ a.floor.slot ∧ a.frontier.slot ≤ a.frontier.slot
      omega
    · have hb' := he.chain.slot_le hb
      refine ⟨_, mem_of_eq_insert he.segments, rfl, ?_⟩
      change first.slot ≤ _ ∧ _ ≤ seg.frontier.slot
      omega
  | shrink _ upper first _ _ _ _ he =>
    have hrange := (hs.segments upper he.upperMem).range
    have hlast := he.chain.range
    have hbelow := he.below
    refine ⟨id, upper.segmentId, grown_insert he.segments fun a ha hid => ?_, fun _ hb => ?_,
      he.reads.files⟩
    · obtain rfl := eq_of_key_eq ha he.upperMem hid
      change first.slot ≤ a.floor.slot ∧ a.frontier.slot ≤ a.frontier.slot
      omega
    · have hb' := he.chain.slot_le hb
      refine ⟨_, mem_of_eq_insert he.segments, rfl, ?_⟩
      change first.slot ≤ _ ∧ _ ≤ upper.frontier.slot
      omega
  | backOff _ _ _ _ he =>
    obtain rfl := he.empty
    exact ⟨id, [], fun a ha => ⟨a, he.segments ▸ ha, rfl, le_rfl, le_rfl⟩, by simp,
      evidence_unread he.evidence⟩
  | merge _ _ _ _ _ _ _ he => exact ⟨_, _, he.files hs⟩

section EvidenceChecks

variable {move : Text → Text} {segmentId : Text}

/-- **The evidence passes its check**: it is filed under a segment that covers its slot. -/
theorem Files.evidenceIn (h : Files ext s blocks s' move segmentId) (hs : ValidSnapshot s)
    (hids : ∀ a ∈ s'.segments, IsLocalId a.segmentId)
    (hhex : ∀ b ∈ blocks, HexCheckpoint b.checkpoint) :
    ∀ e ∈ s'.evidence, EvidenceIn s'.segments e := by
  intro e he
  rcases (h.evidence e).1 he with ⟨r, hr, rfl⟩ | ⟨b, hb, heb⟩
  · obtain ⟨hok, a, ha, hid, hslot⟩ := hs.evidence r hr
    obtain ⟨a', ha', hid', hfloor, hf⟩ := h.grown a ha
    have hmove : a'.segmentId = move r.coverageSegmentId := by rw [hid', hid]
    refine ⟨⟨hok.id, hok.channelId, ?_, hok.blockId, hok.transactionHash, hok.messageId⟩, a', ha',
      hmove, hfloor.trans hslot.1, hslot.2.trans hf⟩
    change IsLocalId (move r.coverageSegmentId)
    exact hmove ▸ hids a' ha'
  · obtain ⟨a, ha, hid, hslot⟩ := h.covers b hb
    have hwhere : e.coverageSegmentId = segmentId ∧ e.l1Slot = b.checkpoint.slot := by
      obtain ⟨_, -, heo⟩ := mem_flatMap.1 heb
      rcases mem_observationEvidence.1 heo with rfl | ⟨-, rfl⟩
      · exact ⟨rfl, rfl⟩
      · exact ⟨rfl, rfl⟩
    refine ⟨evidenceOk_of_mem (hhex b hb).1 (hid ▸ hids a ha) heb, a, ha, hid.trans hwhere.1.symm,
      ?_⟩
    rw [hwhere.2]
    exact hslot

/-- The number of pieces of evidence after a step. -/
theorem Files.size_le (h : Files ext s blocks s' move segmentId) :
    s'.evidence.size ≤ s.evidence.size + 2 * (observations ext blocks).length := by
  have hsub : (s'.evidence.records.map (·.evidenceId)) ⊆ s.evidence.records.map (·.evidenceId) ++
        (blocks.flatMap (blockEvidence ext segmentId)).map (·.evidenceId) := by
    intro _ hk
    obtain ⟨e, he, rfl⟩ := mem_map.1 hk
    rcases (h.evidence e).1 he with ⟨r, hr, rfl⟩ | ⟨b, hb, heb⟩
    · exact mem_append_left _ (mem_map.2 ⟨r, hr, rfl⟩)
    · exact mem_append_right _ (mem_map.2 ⟨e, mem_flatMap.2 ⟨b, hb, heb⟩, rfl⟩)
  have hle := (subperm_of_subset s'.evidence.nodup_keys hsub).length_le
  -- an operation makes at most two pieces of evidence
  have htwo : ∀ (b : CatalogL1Block) (os : List ChannelObservation),
      (os.flatMap (observationEvidence b segmentId)).length ≤ 2 * os.length := by
    intro b os
    induction os with
    | nil => simp
    | cons o _ _ =>
      have hone : (observationEvidence b segmentId o).length ≤ 2 := by
        unfold observationEvidence
        split_ifs <;> simp
      rw [flatMap_cons, length_append, length_cons]
      omega
  have hall : ∀ bs : List CatalogL1Block, (bs.flatMap (blockEvidence ext segmentId)).length ≤
      2 * (observations ext bs).length := by
    intro bs
    induction bs with
    | nil => simp
    | cons b bs _ =>
      have hb := htwo b (blockObservations ext b)
      have hcons : observations ext (b :: bs) =
          (blockObservations ext b).map (Prod.mk b) ++ observations ext bs := flatMap_cons
      rw [flatMap_cons, length_append, hcons, length_append, length_map, blockEvidence]
      omega
  have hblks := hall blocks
  simp only [length_append, length_map] at hle
  change s'.evidence.records.length ≤ s.evidence.records.length + _
  omega

theorem evidenceCountOf_le (evidence : EvidenceTable) (c : Text) :
    evidenceCountOf evidence c ≤ evidence.size := length_filter_le _ _

end EvidenceChecks

/-! ### The frontier and the traversal -/

section Head

variable {metadata : CatalogMetadata} {log : List CatalogL1Block}

/-- The frontier is not ahead of the cursor. -/
def ScannedBelowCursor (s : CatalogSnapshot) : Prop :=
  ∀ f, s.frontier = some f → ∀ slot ∈ f.scannedThroughSlot, ∃ c, cursor s = some c ∧ slot ≤ c.slot

variable {f : CatalogFrontier}

variable {target : CatalogBlockReference}

theorem Advances.scannedBelowCursor (h : Advances s context f target s')
    (hf : ∀ slot ∈ f.scannedThroughSlot, ∃ c, cursor s' = some c ∧ slot ≤ c.slot) :
    ScannedBelowCursor s' := by
  intro _ hg slot hslot
  obtain rfl := some_inj.1 (hg.symm.trans h.frontier)
  exact hf slot hslot

theorem Effect.scannedBelowCursor (h : ScannedBelowCursor s) (htop : CoverageTopology s)
    (he : Effect ext confirms s blocks context s') : ScannedBelowCursor s' := by
  cases he with
  | retarget _ he =>
    refine he.advances.scannedBelowCursor fun slot hslot => ?_
    rw [he.cursor]
    cases hf : s.frontier with rw [hf] at hslot
    | none => cases hslot
    | some f => exact h f hf slot hslot
  | extend _ _ last _ _ f he =>
    refine he.advances.scannedBelowCursor fun slot hslot => ⟨_, he.cursor, ?_⟩
    split_ifs at hslot
    · exact (some_inj.1 hslot).ge
    · obtain ⟨c', hc', hle⟩ := h f he.known slot hslot
      obtain rfl := some_inj.1 (he.start.symm.trans hc')
      have habove := he.above
      have hrange := he.chain.range
      change slot ≤ last.slot
      omega
  | start _ _ _ _ he | openPrefix _ _ _ _ he =>
    exact he.advances.scannedBelowCursor fun slot hslot =>
      ⟨_, he.cursor, (some_inj.1 hslot).ge⟩
  | openGap _ _ last _ _ f _ he =>
    refine he.advances.scannedBelowCursor fun slot hslot => ⟨_, he.cursor, ?_⟩
    obtain ⟨_, hc', _⟩ := h f he.known slot hslot
    obtain rfl := some_inj.1 (he.start.symm.trans hc')
    have habove := he.above
    have hrange := he.chain.range
    change slot ≤ last.slot
    omega
  | repairPrefix _ _ _ _ _ f he | shrink _ _ _ _ _ f _ he | backOff _ _ f _ he =>
    exact he.advances.scannedBelowCursor fun slot hslot => he.cursor ▸ h f he.known slot hslot
  | merge _ _ upper _ _ f _ he =>
    refine he.advances.scannedBelowCursor fun slot hslot => ?_
    rw [he.cursor]
    split_ifs at hslot
    · -- the end of a segment is not above the cursor
      obtain ⟨c, hc⟩ : ∃ c, cursor s = some c := by
        rw [← ne_none_iff_exists', ne_eq, htop.noCursor]
        exact ne_nil_of_mem he.upperMem
      obtain ⟨-, -, -, hh⟩ := htop.cursor c hc
      refine ⟨c, hc, le_of_eq_of_le ?_ (hh upper he.upperMem)⟩
      rw [← he.matched]
      exact (some_inj.1 hslot).symm
    · exact h f he.known slot hslot

/-- **The frontier of a run is never ahead of its cursor.** -/
theorem Run.scannedBelowCursor (hash : NoCollisions ext served)
    (h : Run ext served confirms metadata log s) : ScannedBelowCursor s := by
  induction h with
  | new => exact fun _ hf => by cases hf
  | step hrun hstep ih =>
    obtain ⟨-, -, _, heffect⟩ := hstep.effect
    obtain ⟨_, htop, -⟩ := hrun.topology hash
    exact heffect.scannedBelowCursor ih htop.coverageTopology

/-- What is checked of a frontier, apart from the target. -/
structure FrontierShape (f : CatalogFrontier) : Prop where
  checkpoint : ∀ checkpoint ∈ f.checkpoint, HexCheckpoint checkpoint
  scanned : f.scannedThroughSlot = f.checkpoint.map CatalogBlockCheckpoint.slot
  floor : ∀ floor ∈ f.coverageFloor, ∃ scanned ∈ f.scannedThroughSlot, floor ≤ scanned

theorem FrontierOk.shape (h : FrontierOk f) : FrontierShape f :=
  ⟨h.checkpoint, h.scanned, h.floor⟩

theorem FrontierShape.advanceTo {cp : CatalogBlockCheckpoint} (hhex : HexCheckpoint cp)
    (hfloor : ∀ floor ∈ f.coverageFloor, floor ≤ cp.slot) :
    FrontierShape (f.advanceTo cp) :=
  ⟨by rintro _ ⟨⟩; exact hhex, rfl, fun floor hm => ⟨_, rfl, hfloor floor hm⟩⟩

/-- The lowest segment starts at the floor of the coverage. -/
theorem Topology.floor_le (h : Topology ext served s links) (hf : s.frontier = some f)
    {a : CoverageSegment} (ha : a ∈ s.segments) :
    ∀ floor ∈ f.coverageFloor, floor ≤ a.frontier.slot := by
  intro _ hfloor
  obtain ⟨u, hu, rfl⟩ := (h.segments a).1 ha
  obtain ⟨l, hl⟩ : ∃ l, links.head? = some l := by
    cases links with
    | nil => cases hu
    | cons l _ => exact ⟨l, rfl⟩
  obtain ⟨-, _, hg, hgfloor, -⟩ := h.bottom l hl
  obtain rfl := some_inj.1 (hf.symm.trans hg)
  obtain rfl := some_inj.1 (hgfloor.symm.trans hfloor)
  have hlmem := mem_of_mem_head? hl
  have hrange := (h.covered l hlmem).range
  have hrange' := (h.covered u hu).range
  have hp := h.ascending
  obtain ⟨rest, rfl⟩ : ∃ rest, links = l :: rest := by
    cases links with
    | nil => cases hl
    | cons _ rest => exact ⟨rest, by rw [some_inj.1 hl]⟩
  rcases mem_cons.1 hu with rfl | hu
  · exact hrange
  · have hlt := (pairwise_cons.1 hp).1 u hu
    omega

/-- **The frontier after a step**, whatever the target. -/
theorem Effect.frontierShape (htop : Topology ext served s links) (hhex : ServesHex served)
    (hserved : ∀ b ∈ blocks, b ∈ served) (hs : ValidSnapshot s) (hscanned : ScannedBelowCursor s)
    (he : Effect ext confirms s blocks context s') :
    ∃ f target, Advances s context f target s' ∧ FrontierShape f := by
  have hl : ∀ first last, ChainEnds blocks first last → HexCheckpoint last := by
    intro first last hends
    obtain ⟨b, hb, rfl⟩ := hends.last_mem
    exact hhex b (hserved b hb)
  have hold : ∀ f, s.frontier = some f → FrontierShape f := fun f hf =>
    (hs.head.frontierOk f hf).shape
  cases he with
  | retarget target he =>
    refine ⟨_, target, he.advances, ?_⟩
    cases hf : s.frontier with
    | none => exact ⟨by rintro _ ⟨⟩, rfl, by rintro _ ⟨⟩⟩
    | some f => exact hold f hf
  | extend _ first last target _ f he =>
    refine ⟨_, target, he.advances, ?_⟩
    split_ifs
    · refine FrontierShape.advanceTo (hl first last he.chain) fun floor hfloor => ?_
      obtain ⟨slot, hslot, hle⟩ := (hold f he.known).floor floor hfloor
      obtain ⟨_, hc', _⟩ := hscanned f he.known slot hslot
      obtain rfl := some_inj.1 (he.start.symm.trans hc')
      have habove := he.above
      have hrange := he.chain.range
      omega
    · exact hold f he.known
  | start first last target _ he =>
    refine ⟨_, target, he.advances, FrontierShape.advanceTo (hl first last he.chain) ?_⟩
    rintro _ ⟨⟩
    exact Nat.zero_le _
  | openGap _ _ _ target _ f _ he | shrink _ _ _ _ target f _ he | backOff _ target f _ he =>
    exact ⟨_, target, he.advances, hold f he.known⟩
  | openPrefix first last target _ he =>
    refine ⟨_, target, he.advances, FrontierShape.advanceTo (hl first last he.chain) ?_⟩
    rintro _ ⟨⟩
    exact he.chain.range
  | repairPrefix _ _ _ _ target f he =>
    obtain ⟨hcp, hslots, hfloor⟩ := hold f he.known
    refine ⟨_, target, he.advances, hcp, hslots, ?_⟩
    rintro _ ⟨⟩
    obtain ⟨slot, hslot, hle⟩ := hfloor _ he.floor
    have hbelow := he.below
    have hrange := he.chain.range
    exact ⟨slot, hslot, by omega⟩
  | merge _ _ _ _ target f _ he =>
    refine ⟨_, target, he.advances, ?_⟩
    split_ifs
    · refine FrontierShape.advanceTo he.confirmedHex fun floor hfloor => ?_
      have hle := htop.floor_le he.known he.upperMem floor hfloor
      rw [← he.matched] at hle
      exact hle
    · exact hold f he.known

/-- The cursor after a step is not beyond the target. -/
theorem Effect.cursor_le (hs : ValidSnapshot s) (he : Effect ext confirms s blocks context s')
    (htar : targetLib s' = some target) :
    IsHexId target.blockId ∧ ∀ c ∈ cursor s', c.slot ≤ target.slot := by
  -- what the traversal before the step says
  have hold : targetLib s = some target → IsHexId target.blockId ∧
      ∀ c ∈ cursor s, c.slot ≤ target.slot := by
    intro hs'
    obtain ⟨t, ht, hlib⟩ := bind_eq_some_iff.1 hs'
    have hok := hs.head.traversalOk t ht
    refine ⟨hok.target _ hlib, fun c hc => ?_⟩
    obtain ⟨_, ht', hcur⟩ := bind_eq_some_iff.1 hc
    obtain rfl := some_inj.1 (ht.symm.trans ht')
    exact (hok.cursor c hcur).2 target hlib
  have hread : ∀ first last t, targetLib s = some t → ChainEnds blocks first last →
      WithinTarget blocks t → cursor s' = some (blockReference last) → targetLib s' = some t →
      IsHexId target.blockId ∧ ∀ c ∈ cursor s', c.slot ≤ target.slot := by
    intro first last t ht hends hw hcur ht'
    obtain rfl := some_inj.1 (htar.symm.trans ht')
    refine ⟨(hold ht).1, fun c hc => ?_⟩
    obtain rfl := some_inj.1 (hcur.symm.trans hc)
    obtain ⟨b, hb, rfl⟩ := hends.last_mem
    exact (hw b hb).1
  have hkeep : ∀ t, targetLib s = some t → targetLib s' = some t → cursor s' = cursor s →
      IsHexId target.blockId ∧ ∀ c ∈ cursor s', c.slot ≤ target.slot := by
    intro t ht ht' hcur
    obtain rfl := some_inj.1 (htar.symm.trans ht')
    rw [hcur]
    exact hold ht
  cases he with
  | retarget _ he =>
    obtain rfl := some_inj.1 (htar.symm.trans he.advances.towards)
    rw [he.cursor]
    exact ⟨he.hex, fun c hc => (he.above c hc).1⟩
  | extend _ first last t _ _ he | start first last t _ he | openGap _ first last t _ _ _ he
  | openPrefix first last t _ he =>
    exact hread first last t he.targeted he.chain he.within he.cursor he.advances.towards
  | repairPrefix _ _ _ _ t _ he | merge _ _ _ _ t _ _ he | shrink _ _ _ _ t _ _ he
  | backOff _ t _ _ he => exact hkeep t he.targeted he.advances.towards he.cursor

/-- **The frontier, the traversal and the metadata pass their checks.** -/
theorem Effect.headOk {links' : List Link} (htop : Topology ext served s links)
    (htop' : Topology ext served s' links') (hhex : ServesHex served)
    (hserved : ∀ b ∈ blocks, b ∈ served) (hs : ValidSnapshot s) (hscanned : ScannedBelowCursor s)
    (he : Effect ext confirms s blocks context s') :
    HeadOk s'.metadata s'.frontier s'.traversal := by
  obtain ⟨_, _, ha, hshape⟩ := he.frontierShape htop hhex hserved hs hscanned
  obtain ⟨htar, hcursor⟩ := he.cursor_le hs ha.towards
  have hbelow := he.scannedBelowCursor hscanned htop.coverageTopology
  refine ⟨?_, ?_, fun _ hg => ?_, fun t ht => ?_⟩
  · rw [ha.metadata]
    exact hs.head.metadataOk
  · rw [ha.metadata]
    exact hs.head.time.trans ha.time
  · have hg' := some_inj.1 (ha.frontier.symm.trans hg)
    subst hg'
    refine ⟨hshape.checkpoint, hshape.scanned, ?_, hshape.floor⟩
    rintro _ ⟨⟩
    refine ⟨htar, fun slot hslot => ?_⟩
    obtain ⟨c, hc, hle⟩ := hbelow _ ha.frontier slot hslot
    exact hle.trans (hcursor c hc)
  · have hlib : targetLib s' = t.targetLib := by rw [targetLib, mem_def.1 ht, bind_some]
    have hcur : cursor s' = t.ingestionCursor := by
      rw [cursor, ingestionCursor, mem_def.1 ht, bind_some]
    rw [ha.towards] at hlib
    refine ⟨fun x hx => ?_, fun c hc => ⟨?_, fun _ hx => ?_⟩⟩
    · obtain rfl := some_inj.1 (hlib.trans hx)
      exact htar
    · -- the cursor is the end of a segment
      obtain ⟨_, _, rfl, rfl⟩ := htop'.exists_last (hcur.trans hc)
      exact (htop'.link_hex hhex (by simp)).2
    · obtain rfl := some_inj.1 (hlib.trans hx)
      exact hcursor c (hcur.trans hc)

end Head

/-! ### Batches -/

/-- **The changes of one table**: they are changes of different records, the records written
are there in the end and the keys deleted were there before. -/
structure TableShape {α : Type} {key : α → Text} (upserts : List α) (deletes : List Text)
    (before after : Table key) : Prop where
  mem : ∀ r ∈ upserts, r ∈ after
  keys : (upserts.map key).Nodup
  deleted : ∀ k ∈ deletes, ∃ r ∈ before, key r = k
  deleteKeys : deletes.Nodup
  disjoint : ∀ k ∈ deletes, k ∉ upserts.map key

/-- The changes of the tables of a batch. -/
structure BatchShape (s : CatalogSnapshot) (batch : CatalogBatch) : Prop where
  zones : TableShape batch.upsertZones batch.deleteZoneIds s.zones (afterBatch s batch).zones
  evidence : TableShape batch.upsertEvidence batch.deleteEvidenceIds s.evidence
    (afterBatch s batch).evidence
  segments : TableShape batch.upsertSegments batch.deleteSegmentIds s.segments
    (afterBatch s batch).segments
  gaps : TableShape batch.upsertGaps batch.deleteGapIds s.gaps (afterBatch s batch).gaps

section Batches

variable {α : Type} {key : α → Text} {batch : CatalogBatch}

theorem tableShape_diff [DecidableEq α] (before after : Table key) :
    TableShape (Table.upserts before after) (Table.deletes before after) before after := by
  refine ⟨fun r hr => (mem_upserts.1 hr).1, nodup_upserts before after,
    fun k hk => (mem_deletes.1 hk).1, nodup_deletes before after, fun _ hk hu => ?_⟩
  obtain ⟨_, hr, rfl⟩ := mem_map.1 hu
  exact disjoint_upserts_deletes before after hr hk

variable {before : Table key} {events : List CatalogL1BlockEvent}

theorem tableShape_insertAll {rs : List α} (hkeys : (rs.map key).Nodup) :
    TableShape rs [] before (before.insertAll rs) :=
  ⟨fun _ hr => (mem_insertAll hkeys).2 (.inl hr), hkeys, by simp, nodup_nil, by simp⟩

theorem TableShape.recordKeysOk {upserts : List α} {deletes : List Text} {after : Table key}
    {ok : α → Prop} {okKey : Text → Prop} (h : TableShape upserts deletes before after)
    (hafter : ∀ r ∈ after, ok r) (hb : ∀ r ∈ before, okKey (key r)) :
    RecordKeysOk upserts deletes key ok okKey := by
  refine ⟨fun r hr => hafter r (h.mem r hr), h.keys, fun k hk => ?_, h.deleteKeys, h.disjoint⟩
  obtain ⟨r, hr, rfl⟩ := h.deleted k hk
  exact hb r hr

/-- **A batch of different changes between valid catalogs passes its check.** -/
theorem BatchShape.validBatch (h : BatchShape s batch) (hs : ValidSnapshot s)
    (hs' : ValidSnapshot (afterBatch s batch)) : ValidBatch batch :=
  ⟨hs'.head.frontierOk, hs'.head.traversalOk,
    h.zones.recordKeysOk (fun z hz => (hs'.zones z hz).1.ok)
      fun z hz => (hs.zones z hz).1.ok.channelId,
    h.evidence.recordKeysOk (fun e he => (hs'.evidence e he).ok)
      fun e he => (hs.evidence e he).ok.id,
    h.segments.recordKeysOk hs'.segments fun a ha => (hs.segments a ha).id,
    h.gaps.recordKeysOk (fun g hg => (hs'.gaps g hg).ok) fun g hg => (hs.gaps g hg).ok.id⟩

theorem batchShape_of_intoBatch {w : WorkingCatalog} (h : w.intoBatch s context = some batch) :
    BatchShape s batch := by
  have hafter := afterBatch_intoBatch h
  simp only [WorkingCatalog.intoBatch, ite_none_right_eq_some, some_inj] at h
  obtain ⟨-, rfl⟩ := h
  constructor <;> rw [hafter]
  · exact tableShape_diff s.zones w.zones
  · exact tableShape_diff s.evidence w.evidence
  · exact tableShape_diff s.segments w.segments
  · exact tableShape_diff s.gaps w.gaps

theorem batchShape_of_prepare {target : CatalogBlockReference} {resume : Bool}
    (h : prepareCatalogCatchUpWithResume s target context resume = .ok (some batch)) :
    BatchShape s batch := by
  obtain ⟨-, -, -, _, rfl, -⟩ := prepareCatalogCatchUpWithResume_eq_ok h
  exact ⟨tableShape_insertAll nodup_retargetedZones, tableShape_insertAll nodup_nil,
    tableShape_insertAll nodup_retargetedSegments, tableShape_insertAll nodup_nil⟩

variable {remaining : List CatalogL1BlockEvent}

theorem batchShape_of_page {page : CatalogL1RangePage}
    (h : reduceCatalogPage ext s page context = .ok (.commit batch remaining)) :
    BatchShape s batch := by
  simp only [reduceCatalogPage, bind_eq_ok, exists_unit] at h
  obtain ⟨-, h⟩ := h
  cases hhead : page.events.head? with
  | none => simp [hhead] at h
  | some _ =>
    simp only [hhead, bind_eq_ok, exists_unit] at h
    obtain ⟨-, _, -, -, -, req, -, h⟩ := h
    cases req with
    | some _ => simp at h
    | none =>
      simp only [bind_eq_ok, pure_eq_ok] at h
      obtain ⟨⟨_, _⟩, -, _, hbatch, h⟩ := h
      cases h
      simp only [applyConnectedEvents, bind_eq_ok, required_eq_ok] at hbatch
      obtain ⟨_, -, _, -, _, -, ⟨_, _⟩, -, _, -, _, -, _, -, _, -, hinto⟩ := hbatch
      exact batchShape_of_intoBatch hinto

theorem batchShape_of_open {missing : Text}
    {reason : CoverageGapReason}
    (h : openDisconnectedSegment ext s events missing reason context =
      .ok (.commit batch remaining)) : BatchShape s batch := by
  simp only [openDisconnectedSegment, bind_eq_ok, exists_unit, required_eq_ok, pure_eq_ok] at h
  obtain ⟨-, -, _, -, -, -, ⟨_, _⟩, -, _, -, _, -, -, -, _, -, _, -, _, -, _, -, _, hinto, h⟩ := h
  cases h
  exact batchShape_of_intoBatch hinto

theorem Offered.batchShape
    (h : Offered ext served confirms s events (.commit batch remaining)) : BatchShape s batch := by
  cases h with
  | page _ h => exact batchShape_of_page h
  | repair _ _ _ h =>
    simp only [reduceCatalogRepair, bind_eq_ok, exists_unit] at h
    obtain ⟨-, _, -, -, h⟩ := h
    split at h
    · obtain ⟨_, -, h⟩ := bind_eq_ok.1 h
      exact batchShape_of_page h
    · simp at h
  | confirm _ _ _ h =>
    simp only [confirmCatalogRepairGap, bind_eq_ok, exists_unit] at h
    obtain ⟨-, -, _, -, -, h⟩ := h
    split at h
    · obtain ⟨_, -, h⟩ := bind_eq_ok.1 h
      exact batchShape_of_open h
    · cases h

/-- **Every batch that the engine proposes changes different records.** -/
theorem Proposes.batchShape (h : Proposes ext served confirms s blocks batch) :
    BatchShape s batch := by
  cases h with
  | prepare h => exact batchShape_of_prepare h
  | page h => exact h.batchShape
  | prefixRepair _ _ h =>
    simp only [reduceCatalogPrefixRepair, bind_eq_ok, exists_unit] at h
    obtain ⟨-, -, _, -, h⟩ := h
    have ha : ∀ outcome upper context,
        applyPrefixRepair ext s upper outcome context = .ok (some batch) → BatchShape s batch := by
      intro _ upper _ ha
      simp only [applyPrefixRepair, bind_eq_ok, required_eq_ok, pure_eq_ok] at ha
      obtain ⟨_, -, _, -, _, -, _, -, _, -, w, -, hinto⟩ := ha
      exact batchShape_of_intoBatch hinto
    split at h
    all_goals obtain ⟨_, -, h⟩ := bind_eq_ok.1 h
    · exact ha _ _ _ h
    · split_ifs at h
      · cases h
      · exact ha _ _ _ h
  | gapRepair _ _ h =>
    simp only [reduceCatalogGapRepair, bind_eq_ok, exists_unit, required_eq_ok] at h
    obtain ⟨-, _, -, _, -, _, -, -, _, -, _, -, hinto⟩ := h
    exact batchShape_of_intoBatch hinto

end Batches

end LogosInspector.Catalog
