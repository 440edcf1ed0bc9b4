import LogosInspector.Catalog.Validity

/-!
# What the engine's checks guarantee

The engine does not trust what it is served. Before it edits its working copy it checks that
blocks are linked by their parent ids at increasing slots, that they fit the boundaries of
the repair they were asked for, and that the source's confirmation is about this catalog.
This file says what is known once those checks have passed.

A list of blocks each of which is the parent of the next is a *chain* (`IsBlockChain`).
The two outcomes of a search are described by `ConnectedRepair` – a chain that fills the
space between the boundaries – and `UnresolvedRepair` – a chain that hangs from the upper
boundary.
-/

namespace LogosInspector.Catalog

open List Option

/-! ### Chains of blocks -/

/-- `a` is the parent of `b`. -/
def ParentOf (a b : CatalogL1Block) : Prop :=
  a.checkpoint.slot < b.checkpoint.slot ∧ b.checkpoint.parentId = a.checkpoint.blockId

/-- Blocks each of which is the parent of the next. -/
abbrev IsBlockChain (blocks : List CatalogL1Block) : Prop := blocks.IsChain ParentOf

variable {blocks : List CatalogL1Block} {b : CatalogL1Block} {s : CatalogSnapshot}
  {events accepted remaining : List CatalogL1BlockEvent}

section

variable (h : IsBlockChain blocks)

include h

theorem IsBlockChain.pairwise_slot :
    blocks.Pairwise (fun a b => a.checkpoint.slot < b.checkpoint.slot) := by
  have hslot : blocks.IsChain (fun a b => a.checkpoint.slot < b.checkpoint.slot) :=
    List.IsChain.imp (fun _ _ => And.left) h
  have htrans : Trans (fun a b : CatalogL1Block => a.checkpoint.slot < b.checkpoint.slot)
      (fun a b : CatalogL1Block => a.checkpoint.slot < b.checkpoint.slot)
      (fun a b : CatalogL1Block => a.checkpoint.slot < b.checkpoint.slot) :=
    ⟨fun h h' => Nat.lt_trans h h'⟩
  exact isChain_iff_pairwise.1 hslot

theorem IsBlockChain.nodup : blocks.Nodup :=
  h.pairwise_slot.imp fun hlt heq => absurd (congrArg (·.checkpoint.slot) heq) hlt.ne

/-- The first block of a chain is at the lowest slot. -/
theorem IsBlockChain.head_le {first : CatalogL1Block} (hfirst : blocks.head? = some first)
    (hb : b ∈ blocks) :
    first.checkpoint.slot ≤ b.checkpoint.slot := by
  obtain ⟨rest, rfl⟩ : ∃ rest, blocks = first :: rest := by
    cases blocks with
    | nil => cases hfirst
    | cons _ rest =>
      cases hfirst
      exact ⟨rest, rfl⟩
  rcases mem_cons.1 hb with rfl | hb
  · exact le_rfl
  · exact ((pairwise_cons.1 h.pairwise_slot).1 b hb).le

/-- The last block of a chain is at the highest slot. -/
theorem IsBlockChain.le_last {last : CatalogL1Block} (hlast : blocks.getLast? = some last)
    (hb : b ∈ blocks) :
    b.checkpoint.slot ≤ last.checkpoint.slot := by
  obtain ⟨_, rfl⟩ := getLast?_eq_some_iff.1 hlast
  rcases mem_append.1 hb with hb | hb
  · exact ((pairwise_append.1 h.pairwise_slot).2.2 b hb last (mem_singleton_self _)).le
  · rw [mem_singleton.1 hb]

end

/-- The first and the last block of a chain that is not empty. -/
structure ChainEnds (blocks : List CatalogL1Block) (first last : CatalogBlockCheckpoint) :
    Prop where
  chain : IsBlockChain blocks
  head : blocks.head?.map CatalogL1Block.checkpoint = some first
  last : blocks.getLast?.map CatalogL1Block.checkpoint = some last

namespace ChainEnds

variable {blocks blocks' : List CatalogL1Block} {first last first' last' : CatalogBlockCheckpoint}

variable (h : ChainEnds blocks first last)

include h

theorem ne_nil : blocks ≠ [] := by
  rintro rfl
  cases h.head

theorem slot_le {b : CatalogL1Block} (hb : b ∈ blocks) :
    first.slot ≤ b.checkpoint.slot ∧ b.checkpoint.slot ≤ last.slot := by
  obtain ⟨_, hx, rfl⟩ := map_eq_some_iff.1 h.head
  obtain ⟨_, hy, rfl⟩ := map_eq_some_iff.1 h.last
  exact ⟨h.chain.head_le hx hb, h.chain.le_last hy hb⟩

theorem first_mem : ∃ b ∈ blocks, b.checkpoint = first := by
  obtain ⟨x, hx, rfl⟩ := map_eq_some_iff.1 h.head
  exact ⟨x, mem_of_mem_head? hx, rfl⟩

theorem last_mem : ∃ b ∈ blocks, b.checkpoint = last := by
  obtain ⟨x, hx, rfl⟩ := map_eq_some_iff.1 h.last
  exact ⟨x, mem_of_getLast? hx, rfl⟩

theorem range : first.slot ≤ last.slot := by
  obtain ⟨_, hb, rfl⟩ := h.last_mem
  exact (h.slot_le hb).1

/-- Two chains of which the second goes on where the first ends. -/
theorem append (h' : ChainEnds blocks' first' last')
    (hslot : last.slot < first'.slot) (hp : first'.parentId = last.blockId) :
    ChainEnds (blocks ++ blocks') first last' := by
  refine ⟨isChain_append.2 ⟨h.chain, h'.chain, fun _ ha _ hb => ?_⟩, ?_, ?_⟩
  · have ha' := h.last
    have hb' := h'.head
    rw [mem_def.1 ha, map_some, some_inj] at ha'
    rw [mem_def.1 hb, map_some, some_inj] at hb'
    rw [ParentOf, ha', hb']
    exact ⟨hslot, hp⟩
  · rw [head?_append_of_ne_nil _ h.ne_nil]
    exact h.head
  · rw [getLast?_append_of_ne_nil _ h'.ne_nil]
    exact h'.last

end ChainEnds

/-! ### Ids, targets, cursors -/

variable {label : String} {u : Unit}

@[simp] theorem validateId_eq_ok {value : Text} :
    validateId value label = .ok u ↔ IsHexId value := by
  simp [validateId]

@[simp] theorem validateReferenceOf_eq_ok {reference : CatalogBlockReference} :
    validateReferenceOf reference label = .ok u ↔ IsHexId reference.blockId :=
  validateId_eq_ok

/-- Both ids of a checkpoint are canonical. -/
def HexCheckpoint (checkpoint : CatalogBlockCheckpoint) : Prop :=
  IsHexId checkpoint.blockId ∧ IsHexId checkpoint.parentId

@[simp] theorem validateCheckpointOf_eq_ok {cp : CatalogBlockCheckpoint} :
    validateCheckpointOf cp label = .ok u ↔ HexCheckpoint cp := by
  simp [validateCheckpointOf, HexCheckpoint]

@[simp] theorem validateContext_eq_ok {context : CatalogEngineContext} :
    validateContext s context = .ok u ↔ s.metadata.updatedAtUnix ≤ context.updatedAtUnix := by
  simp [validateContext]

/-- The block a catalog is read towards. -/
def targetLib (s : CatalogSnapshot) : Option CatalogBlockReference :=
  s.traversal.bind CatalogTraversal.targetLib

/-- The block after which reading goes on. -/
def cursor (s : CatalogSnapshot) : Option CatalogBlockReference := ingestionCursor s.traversal

@[simp] theorem currentTarget_eq_ok {target : CatalogBlockReference} :
    currentTarget s = .ok target ↔ targetLib s = some target := required_eq_ok

/-- The segment that the engine finds at the cursor is the only one that ends there. -/
theorem activeSegmentIdIn_eq_ok {segments : SegmentTable} {c : CatalogBlockReference}
    {segmentId : Text} (h : activeSegmentIdIn segments c = .ok segmentId) :
    ∃ seg ∈ segments, seg.segmentId = segmentId ∧ seg.frontier = c ∧
      ∀ other ∈ segments, other.frontier = c → other = seg := by
  unfold activeSegmentIdIn at h
  have hm (x : CoverageSegment) : x ∈ segments.records.filter (fun seg => seg.frontier = c) ↔
        x ∈ segments ∧ x.frontier = c := by
    simp [Table.mem_records]
  split at h
  · next seg heq =>
    simp only [heq, mem_singleton] at hm
    obtain ⟨hin, hfr⟩ := (hm seg).1 rfl
    rw [pure_eq_ok] at h
    exact ⟨seg, hin, h, hfr, fun other ho hf => (hm other).2 ⟨ho, hf⟩⟩
  · exact absurd h throw_ne_ok
  · exact absurd h throw_ne_ok

/-! ### Repairs -/

variable {recovered : List CatalogL1Block}

theorem validateRecoveredFrom_eq_ok {prev : Option CatalogBlockCheckpoint} {ids : List Text}
    (h : validateRecoveredFrom prev ids recovered = .ok ()) :
    IsBlockChain recovered ∧ (∀ b ∈ recovered, HexCheckpoint b.checkpoint) ∧
      ∀ before ∈ prev, ∀ b ∈ recovered.head?, before.slot < b.checkpoint.slot ∧
        b.checkpoint.parentId = before.blockId := by
  induction recovered generalizing prev ids with
  | nil => exact ⟨isChain_nil, by simp, by simp⟩
  | cons _ _ ih =>
    simp only [validateRecoveredFrom, bind_eq_ok, exists_unit, validateCheckpointOf_eq_ok,
      reject_eq_ok, not_exists, not_and, not_or, not_le, not_not] at h
    obtain ⟨hhex, -, hprev, hrest⟩ := h
    obtain ⟨hchain, hhexes, hlink⟩ := ih hrest
    refine ⟨isChain_cons.2 ⟨fun b hb => hlink _ rfl b hb, hchain⟩, ?_, ?_⟩
    · intro b hb
      rcases mem_cons.1 hb with rfl | hb
      · exact hhex
      · exact hhexes b hb
    · rintro before hbefore _ ⟨⟩
      exact hprev before hbefore

variable {request : CatalogAncestryRepairRequest}

/-- What `validateRepairRequest` checks of the boundaries. -/
theorem validateRepairRequest_eq_ok (h : validateRepairRequest request = .ok ()) :
    ∀ lower ∈ request.lowerCheckpoint, lower.slot < request.upperCheckpoint.slot := by
  simp only [validateRepairRequest, bind_eq_ok, exists_unit, Option.forM_eq_forM,
    optionForM_eq_ok, reject_eq_ok, not_le] at h
  exact fun lower hlow => (h.2.1 lower hlow).2

/-- **Blocks that fill the space between the boundaries of a request**: they go on from the
lower boundary, or start at slot `0`, and the upper boundary goes on from them. -/
structure ConnectedRepair (request : CatalogAncestryRepairRequest)
    (recovered : List CatalogL1Block) : Prop where
  boundary : ∀ lower ∈ request.lowerCheckpoint, lower.slot < request.upperCheckpoint.slot
  empty : recovered = [] → ∃ lower ∈ request.lowerCheckpoint,
    request.upperCheckpoint.parentId = lower.blockId
  hex : ∀ b ∈ recovered, HexCheckpoint b.checkpoint
  filled : recovered ≠ [] → ∃ first last, ChainEnds recovered first last ∧
    request.upperCheckpoint.parentId = last.blockId ∧
    last.slot < request.upperCheckpoint.slot ∧
    (∀ lower ∈ request.lowerCheckpoint, lower.slot < first.slot ∧ first.parentId = lower.blockId) ∧
    (request.lowerCheckpoint = none → first.slot = 0 ∧
      ∀ expected ∈ request.expectedGenesisId, expected = first.blockId)

theorem validateConnectedRepair_eq_ok (h : validateConnectedRepair request recovered = .ok ()) :
    ConnectedRepair request recovered := by
  simp only [validateConnectedRepair, bind_eq_ok, exists_unit] at h
  obtain ⟨hreq, h⟩ := h
  have hb := validateRepairRequest_eq_ok hreq
  rcases eq_nil_or_concat recovered with rfl | ⟨front, newest, rfl⟩
  · simp only [head?_nil, reject_eq_ok, not_forall, not_not] at h
    obtain ⟨lower, hlow, hp⟩ := h
    exact ⟨hb, fun _ => ⟨lower, hlow, hp⟩, by simp, fun hne => absurd rfl hne⟩
  · obtain ⟨oldest, hold⟩ : ∃ oldest, (front ++ [newest]).head? = some oldest := by
      cases front <;> exact ⟨_, rfl⟩
    rw [concat_eq_append] at h
    simp only [hold, getLast?_concat, bind_eq_ok, exists_unit, reject_eq_ok,
      not_not, not_le, validateRecoveredChain] at h
    obtain ⟨hchain, hnew, hslot, -, hlow⟩ := h
    obtain ⟨hlin, hhex, -⟩ := validateRecoveredFrom_eq_ok hchain
    rw [concat_eq_append]
    refine ⟨hb, fun hnil => absurd hnil (by simp), hhex, fun _ =>
      ⟨oldest.checkpoint, newest.checkpoint, ⟨hlin, by rw [hold]; rfl,
        by rw [getLast?_concat]; rfl⟩, hnew.symm, hslot, ?_, ?_⟩⟩
    · intro _ hl
      rw [mem_def.1 hl] at hlow
      simp only [bind_eq_ok, exists_unit, reject_eq_ok, not_or, not_le, not_not] at hlow
      exact ⟨hlow.1.1, hlow.2⟩
    · intro hn
      rw [hn] at hlow
      simp only [bind_eq_ok, exists_unit, reject_eq_ok, not_exists, not_and, not_not] at hlow
      exact hlow

/-- **Blocks that hang from the upper boundary of a request** and do not reach the lower one,
nor slot `0`: the parent of the lowest is missing. -/
structure UnresolvedRepair (request : CatalogAncestryRepairRequest)
    (recovered : List CatalogL1Block) (missingBlockId : Text) : Prop where
  boundary : ∀ lower ∈ request.lowerCheckpoint, lower.slot < request.upperCheckpoint.slot
  missing : IsHexId missingBlockId
  apart : ∀ lower ∈ request.lowerCheckpoint, lower.blockId ≠ missingBlockId
  empty : recovered = [] → request.upperCheckpoint.parentId = missingBlockId
  hex : ∀ b ∈ recovered, HexCheckpoint b.checkpoint
  hanging : recovered ≠ [] → ∃ first last, ChainEnds recovered first last ∧
    first.parentId = missingBlockId ∧
    request.upperCheckpoint.parentId = last.blockId ∧
    last.slot < request.upperCheckpoint.slot ∧
    (∀ lower ∈ request.lowerCheckpoint, lower.slot < first.slot) ∧
    (request.lowerCheckpoint = none → first.slot ≠ 0)

theorem validateUnresolvedRepair_eq_ok {missingBlockId : Text} {upper : CatalogBlockCheckpoint}
    (h : validateUnresolvedRepair request recovered missingBlockId upper = .ok ()) :
    UnresolvedRepair request recovered missingBlockId ∧ upper = request.upperCheckpoint := by
  simp only [validateUnresolvedRepair, bind_eq_ok, exists_unit, validateId_eq_ok, reject_eq_ok,
    not_not, not_exists, not_and] at h
  obtain ⟨hreq, hm, rfl, hapart, h⟩ := h
  have hb := validateRepairRequest_eq_ok hreq
  refine ⟨?_, rfl⟩
  rcases eq_nil_or_concat recovered with rfl | ⟨front, newest, rfl⟩
  · simp only [head?_nil, reject_eq_ok, not_not] at h
    exact ⟨hb, hm, hapart, fun _ => h, by simp, fun hne => absurd rfl hne⟩
  · obtain ⟨oldest, hold⟩ : ∃ oldest, (front ++ [newest]).head? = some oldest := by
      cases front <;> exact ⟨_, rfl⟩
    rw [concat_eq_append] at h
    simp only [hold, getLast?_concat, bind_eq_ok, exists_unit, reject_eq_ok,
      not_not, not_or, not_exists, not_and, not_le, validateRecoveredChain] at h
    obtain ⟨hchain, ⟨hp, hnew⟩, hslot, hlow, hzero, -⟩ := h
    obtain ⟨hlin, hhex, -⟩ := validateRecoveredFrom_eq_ok hchain
    rw [concat_eq_append]
    exact ⟨hb, hm, hapart, fun hnil => absurd hnil (by simp), hhex, fun _ =>
      ⟨oldest.checkpoint, newest.checkpoint, ⟨hlin, by rw [hold]; rfl,
        by rw [getLast?_concat]; rfl⟩, hp, hnew.symm, hslot, hlow, hzero⟩⟩

/-! ### Pages -/

/-- The blocks of events. -/
abbrev eventBlocks (events : List CatalogL1BlockEvent) : List CatalogL1Block :=
  events.map CatalogL1BlockEvent.block

theorem splitAfter_eq_ok {prev : CatalogL1BlockEvent}
    (h : splitAfter prev.block.checkpoint events = .ok (accepted, remaining)) :
    events = accepted ++ remaining ∧ IsBlockChain (eventBlocks (prev :: accepted)) := by
  induction events generalizing prev accepted with
  | nil =>
    rw [splitAfter, pure_eq_ok] at h
    obtain ⟨rfl, rfl⟩ := Prod.mk.inj h
    exact ⟨rfl, isChain_singleton _⟩
  | cons _ _ ih =>
    rw [splitAfter] at h
    split_ifs at h with hlink
    · simp only [bind_eq_ok, pure_eq_ok, Prod.mk.injEq] at h
      obtain ⟨⟨_, _⟩, hrest, rfl, rfl⟩ := h
      obtain ⟨rfl, hchain⟩ := ih hrest
      exact ⟨rfl, isChain_cons_cons.2 ⟨hlink, hchain⟩⟩
    · simp only [bind_eq_ok, exists_unit, pure_eq_ok, Prod.mk.injEq] at h
      obtain ⟨-, rfl, rfl⟩ := h
      exact ⟨rfl, isChain_singleton _⟩

/-- The accepted events are a chain that starts the page. -/
theorem splitConnectedEvents_eq_ok (h : splitConnectedEvents events = .ok (accepted, remaining)) :
    events = accepted ++ remaining ∧ accepted ≠ [] ∧ IsBlockChain (eventBlocks accepted) := by
  unfold splitConnectedEvents at h
  cases events with
  | nil => exact absurd h throw_ne_ok
  | cons _ _ =>
    simp only [bind_eq_ok, pure_eq_ok, Prod.mk.injEq] at h
    obtain ⟨⟨_, _⟩, hrest, rfl, rfl⟩ := h
    obtain ⟨rfl, hchain⟩ := splitAfter_eq_ok hrest
    exact ⟨rfl, cons_ne_nil _ _, hchain⟩

end LogosInspector.Catalog
