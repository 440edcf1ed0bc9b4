import LogosInspector.Catalog.Effects

/-!
# The shape of the coverage

The segments of a reachable catalog lie one above the other, with one gap between any two
neighbours. The proof follows the catalog along a run with a list of *links* from the lowest
to the highest segment: a link is a segment, the gap below it, if it is not the lowest, and
the blocks that were read as part of it. The table of segments, the table of gaps, the cursor
and the bottom of the frontier are all read off that list (`Topology`), and every effect is a
small change of it: the last link grows, a link is added, two neighbours become one.

The ids of the gaps are hashes of block ids, and a gap that gets the id of another one takes
its place. So the result rests on there being no collision of SHA-256 among the ids of the
blocks served (`NoCollisions`).
-/

namespace LogosInspector

namespace Catalog

open List Table

open Option (some_inj)

/-! ### Gap ids -/

/-- The ids of the blocks served. -/
def servedIds (served : Set CatalogL1Block) : Set Text :=
  {blockId | ∃ b ∈ served, b.checkpoint.blockId = blockId}

/-- **SHA-256 has no collision** among the texts that gap ids are made of: the concatenations
of two ids of blocks served. -/
def NoCollisions (ext : Externals) (served : Set CatalogL1Block) : Prop :=
  Set.InjOn ext.sha256 {bytes | ∃ a ∈ servedIds served, ∃ b ∈ servedIds served,
    Text.bytes a ++ Text.bytes b = bytes}

theorem IsHexId.length_bytes {value : Text} (h : IsHexId value) : value.bytes.length = 64 :=
  (Text.length_bytes value).trans h.1

/-- Without collisions a gap id determines the ids it is made of. -/
theorem gapIdForBoundary_inj {ext : Externals} {served : Set CatalogL1Block}
    (hash : NoCollisions ext served) {lower lower' : CatalogBlockReference}
    {upper upper' : CatalogBlockCheckpoint}
    (h : gapIdForBoundary ext lower upper = gapIdForBoundary ext lower' upper')
    (hlow : lower.blockId ∈ servedIds served)
    (hlow' : lower'.blockId ∈ servedIds served) (hupper : upper.blockId ∈ servedIds served)
    (hupper' : upper'.blockId ∈ servedIds served) (hhex : IsHexId lower.blockId)
    (hhex' : IsHexId lower'.blockId) :
    upper.blockId = upper'.blockId := by
  have hdig := Text.hexEncode_injective (append_cancel_left h)
  have hbytes := hash ⟨_, hlow, _, hupper, rfl⟩ ⟨_, hlow', _, hupper', rfl⟩ hdig
  have hlen := hhex.length_bytes.trans hhex'.length_bytes.symm
  exact Text.bytes_injective (append_inj_right hbytes hlen)

theorem segmentIdForFloor_congr {floor floor' : CatalogBlockCheckpoint}
    (h : floor.blockId = floor'.blockId) : segmentIdForFloor floor = segmentIdForFloor floor' := by
  unfold segmentIdForFloor
  rw [h]

/-! ### Links -/

/-- A segment, the gap below it, and the blocks that were read as part of it. -/
structure Link where
  gap : Option CoverageGap
  segment : CoverageSegment
  blocks : List CatalogL1Block

/-- A gap between two segments. -/
structure Joins (gap : CoverageGap) (lower upper : CoverageSegment) : Prop where
  lowerId : gap.lowerSegmentId = lower.segmentId
  lowerCheckpoint : gap.lowerCheckpoint = lower.frontier
  upperId : gap.upperSegmentId = upper.segmentId
  upperBlock : gap.upperBlock = blockReference upper.floor
  parentId : gap.requiredParentId = upper.floor.parentId

/-- The blocks of a link reach from the floor of its segment to the frontier. -/
def Link.Covered (l : Link) : Prop :=
  ∃ last, ChainEnds l.blocks l.segment.floor last ∧ blockReference last = l.segment.frontier

/-- A link that comes right above another. -/
def Above (a b : Link) : Prop :=
  a.segment.frontier.slot < b.segment.floor.slot ∧
    ∃ gap, b.gap = some gap ∧ Joins gap a.segment b.segment

/-- The gap below a link has kept the id it got when it was opened. -/
def Link.Named (ext : Externals) (served : Set CatalogL1Block) (l : Link) : Prop :=
  ∀ gap ∈ l.gap, ∃ upper : CatalogBlockCheckpoint, upper.blockId ∈ servedIds served ∧
    l.segment.segmentId = segmentIdForFloor upper ∧
    gap.gapId = gapIdForBoundary ext gap.lowerCheckpoint upper

/-- The bottom of the coverage as the frontier has it. -/
def BottomOk (s : CatalogSnapshot) (l : Link) : Prop :=
  ∃ f, s.frontier = some f ∧ f.coverageFloor = some l.segment.floor.slot ∧
    (f.prefixStatus = .unavailable ∨
      f.prefixStatus = .complete ∧ validateGenesisBlock s l.segment.floor = .ok ())

/-- **The coverage of a catalog is a list of links**, from the lowest to the highest. -/
structure Topology (ext : Externals) (served : Set CatalogL1Block) (s : CatalogSnapshot)
    (links : List Link) : Prop where
  above : links.IsChain Above
  covered : ∀ l ∈ links, l.Covered
  bottom : ∀ l ∈ links.head?, l.gap = none ∧ BottomOk s l
  named : ∀ l ∈ links, l.Named ext served
  served : ∀ l ∈ links, ∀ b ∈ l.blocks, b ∈ served
  segments : ∀ segment, segment ∈ s.segments ↔ ∃ l ∈ links, l.segment = segment
  gaps : ∀ gap, gap ∈ s.gaps ↔ ∃ l ∈ links, l.gap = some gap
  cursor : cursor s = links.getLast?.map fun l => l.segment.frontier

theorem Link.Covered.range {l : Link} (h : l.Covered) :
    l.segment.floor.slot ≤ l.segment.frontier.slot := by
  obtain ⟨_, hends, hlast⟩ := h
  rw [← hlast]
  exact hends.range

variable {ext : Externals} {served : Set CatalogL1Block} {s : CatalogSnapshot} {links : List Link}
  {a b : Link} {gap : CoverageGap}

namespace Topology

/-- The segments of the links follow each other. -/
theorem ascending (h : Topology ext served s links) : links.Pairwise fun a b =>
    a.segment.frontier.slot < b.segment.floor.slot := by
  -- the relation becomes transitive once the range of the upper segment is part of it
  have htrans : IsTrans Link fun a b => a.segment.frontier.slot < b.segment.floor.slot ∧
      b.segment.floor.slot ≤ b.segment.frontier.slot :=
    ⟨fun _ _ _ h h' => ⟨by omega, h'.2⟩⟩
  have hchain : links.IsChain fun a b => a.segment.frontier.slot < b.segment.floor.slot ∧
      b.segment.floor.slot ≤ b.segment.frontier.slot :=
    h.above.imp_of_mem_imp fun _ b _ hb hab => ⟨hab.1, (h.covered b hb).range⟩
  exact (isChain_iff_pairwise.1 hchain).imp And.left

variable (h : Topology ext served s links)

include h

/-- Two links are one below the other, or the same. -/
theorem trichotomy (ha : a ∈ links)
    (hb : b ∈ links) : a = b ∨ a.segment.frontier.slot < b.segment.floor.slot ∨
      b.segment.frontier.slot < a.segment.floor.slot := by
  refine List.Pairwise.forall_of_forall_of_flip
    (R := fun a b => a = b ∨ a.segment.frontier.slot < b.segment.floor.slot ∨
      b.segment.frontier.slot < a.segment.floor.slot) (fun _ _ => .inl rfl) ?_ ?_ ha hb
  · exact h.ascending.imp fun hlt => .inr (.inl hlt)
  · exact h.ascending.imp fun hlt => .inr (.inr hlt)

theorem nodup : links.Nodup := by
  refine (List.Pairwise.imp_of_mem ?_ h.ascending)
  rintro a b ha - hlt rfl
  exact absurd (h.covered a ha).range (by omega)

/-- Two links whose segments share a slot are the same. -/
theorem eq_of_slot (ha : a ∈ links)
    (hb : b ∈ links) {slot : ℕ} (ha₁ : a.segment.floor.slot ≤ slot)
    (ha₂ : slot ≤ a.segment.frontier.slot) (hb₁ : b.segment.floor.slot ≤ slot)
    (hb₂ : slot ≤ b.segment.frontier.slot) : a = b := by
  rcases h.trichotomy ha hb with heq | hlt | hlt
  · exact heq
  · omega
  · omega

/-- A segment belongs to one link. -/
theorem eq_of_segmentId (ha : a ∈ links)
    (hb : b ∈ links) (hid : a.segment.segmentId = b.segment.segmentId) : a = b := by
  have heq : a.segment = b.segment :=
    eq_of_key_eq ((h.segments _).2 ⟨a, ha, rfl⟩) ((h.segments _).2 ⟨b, hb, rfl⟩) hid
  have hrange := (h.covered a ha).range
  exact h.eq_of_slot ha hb le_rfl hrange (heq ▸ le_rfl) (heq ▸ hrange)

/-- A link with a gap below it comes right above another link. -/
theorem exists_above (hb : b ∈ links) (hgap : b.gap = some gap) :
    ∃ pre a post, links = pre ++ a :: b :: post ∧ Above a b ∧ Joins gap a.segment b.segment := by
  obtain ⟨pre, post, rfl⟩ := append_of_mem hb
  rcases eq_nil_or_concat pre with rfl | ⟨pre, a, rfl⟩
  · -- the lowest link has no gap
    rw [(h.bottom b rfl).1] at hgap
    cases hgap
  · rw [concat_eq_append, append_assoc, singleton_append] at h ⊢
    have hab : Above a b := (isChain_append_cons_cons.1 h.above).2.1
    obtain ⟨_, hgap', hjoin⟩ := hab.2
    obtain rfl := some_inj.1 (hgap.symm.trans hgap')
    exact ⟨pre, a, post, rfl, hab, hjoin⟩

/-- A gap belongs to one link. -/
theorem eq_of_gap (ha : a ∈ links)
    (hb : b ∈ links) (hagap : a.gap = some gap) (hbgap : b.gap = some gap) :
    a = b := by
  obtain ⟨_, _, _, _, _, hjoin⟩ := h.exists_above ha hagap
  obtain ⟨_, _, _, _, _, hjoin'⟩ := h.exists_above hb hbgap
  exact h.eq_of_segmentId ha hb (hjoin.upperId.symm.trans hjoin'.upperId)

end Topology

/-! ### The bottom of the coverage -/

variable {s' : CatalogSnapshot} {context : CatalogEngineContext} {f : CatalogFrontier}
  {target : CatalogBlockReference} {l l' : Link}

section Bottom

variable {f' : CatalogFrontier}

theorem Advances.networkScope (h : Advances s context f target s') :
    s'.metadata.networkScope = s.metadata.networkScope := by
  rw [h.metadata]
  rfl

theorem validateGenesisBlock_congr {cp : CatalogBlockCheckpoint}
    (h : s'.metadata.networkScope = s.metadata.networkScope) :
    validateGenesisBlock s' cp = validateGenesisBlock s cp := by
  unfold validateGenesisBlock
  rw [h]

theorem Advances.bottomOk (h : Advances s context f target s')
    (hfloor : f.coverageFloor = some l.segment.floor.slot)
    (hs : f.prefixStatus = .unavailable ∨
      f.prefixStatus = .complete ∧ validateGenesisBlock s l.segment.floor = .ok ()) :
    BottomOk s' l := by
  refine ⟨_, h.frontier, hfloor, ?_⟩
  rw [validateGenesisBlock_congr h.networkScope]
  exact hs

/-- The bottom stays where it is when a step changes neither the floor nor the frontier's
account of it. -/
theorem BottomOk.keep (h : BottomOk s l) (hf : s.frontier = some f)
    (ha : Advances s context f' target s') (hfloor : f'.coverageFloor = f.coverageFloor)
    (hs : f'.prefixStatus = f.prefixStatus) (hl : l'.segment.floor = l.segment.floor) :
    BottomOk s' l' := by
  obtain ⟨_, hg, hgfloor, hgstatus⟩ := h
  obtain rfl := some_inj.1 (hf.symm.trans hg)
  refine ha.bottomOk ?_ ?_
  · rw [hfloor, hgfloor, hl]
  · rw [hs, hl]
    exact hgstatus

end Bottom

/-! ### Changing one link -/

variable {pre post : List Link}

variable {segment : CoverageSegment}

namespace Topology

variable (h : Topology ext served s (pre ++ l :: post))

include h

/-- The gaps of the other links are the other gaps. -/
theorem mem_gaps_other :
    (∃ x ∈ pre ++ post, x.gap = some gap) ↔ gap ∈ s.gaps ∧ l.gap ≠ some gap := by
  have hm : ∀ {x}, x ∈ pre ++ l :: post ↔ x = l ∨ x ∈ pre ++ post :=
    perm_middle.mem_iff.trans mem_cons
  constructor
  · rintro ⟨x, hx, hgap⟩
    refine ⟨(h.gaps gap).2 ⟨x, hm.2 (.inr hx), hgap⟩, fun hl => ?_⟩
    have hxl : x = l := h.eq_of_gap (hm.2 (.inr hx)) (hm.2 (.inl rfl)) hgap hl
    subst hxl
    exact (nodup_middle.1 h.nodup).notMem hx
  · rintro ⟨hgap, hl⟩
    obtain ⟨x, hx, hxgap⟩ := (h.gaps gap).1 hgap
    rcases hm.1 hx with rfl | hx
    · exact absurd hxgap hl
    · exact ⟨x, hx, hxgap⟩

/-- The segments of the other links are the other segments. -/
theorem mem_segments_other : (∃ x ∈ pre ++ post, x.segment = segment) ↔
      segment ∈ s.segments ∧ segment.segmentId ≠ l.segment.segmentId := by
  have hm : ∀ {x}, x ∈ pre ++ l :: post ↔ x = l ∨ x ∈ pre ++ post :=
    perm_middle.mem_iff.trans mem_cons
  constructor
  · rintro ⟨x, hx, rfl⟩
    refine ⟨(h.segments _).2 ⟨x, hm.2 (.inr hx), rfl⟩, fun hid => ?_⟩
    have hxl : x = l := h.eq_of_segmentId (hm.2 (.inr hx)) (hm.2 (.inl rfl)) hid
    subst hxl
    exact (nodup_middle.1 h.nodup).notMem hx
  · rintro ⟨hseg, hid⟩
    obtain ⟨x, hx, rfl⟩ := (h.segments segment).1 hseg
    rcases hm.1 hx with rfl | hx
    · exact absurd rfl hid
    · exact ⟨x, hx, rfl⟩

/-- **One link is replaced** by one with the same segment id. -/
theorem replace (hid : l'.segment.segmentId = l.segment.segmentId)
    (hbelow : ∀ a, Above a l → Above a l')
    (habove : post ≠ [] → l'.segment.frontier = l.segment.frontier) (hc : l'.Covered)
    (hname : l'.Named ext served) (hs : ∀ b ∈ l'.blocks, b ∈ served)
    (hbottom : ∀ x ∈ (pre ++ l' :: post).head?, x.gap = none ∧ BottomOk s' x)
    (hseg : s'.segments = s.segments.insert l'.segment)
    (hgaps : ∀ gap, gap ∈ s'.gaps ↔ l'.gap = some gap ∨ gap ∈ s.gaps ∧ l.gap ≠ some gap)
    (hcur : Catalog.cursor s' = (pre ++ l' :: post).getLast?.map fun l => l.segment.frontier) :
    Topology ext served s' (pre ++ l' :: post) := by
  have hm : ∀ {x}, x ∈ pre ++ l' :: post ↔ x = l' ∨ x ∈ pre ++ post :=
    perm_middle.mem_iff.trans mem_cons
  have hold : ∀ {x}, x ∈ pre ++ post → x ∈ pre ++ l :: post := by
    intro x hx
    simp only [mem_append, mem_cons] at hx ⊢
    tauto
  refine ⟨?_, ?_, hbottom, ?_, ?_, fun _ => ?_, fun gap => ?_, hcur⟩
  · obtain ⟨hpre, hpost, hlink⟩ := isChain_append.1 h.above
    obtain ⟨hhead, hpost⟩ := isChain_cons.1 hpost
    refine isChain_append.2 ⟨hpre, isChain_cons.2 ⟨fun b hb => ?_, hpost⟩, ?_⟩
    · have hne : post ≠ [] := fun hnil => by rw [hnil] at hb; cases hb
      obtain ⟨hslot, gap, hgap, hjoin⟩ := hhead b hb
      have hf := habove hne
      exact ⟨hf ▸ hslot, gap, hgap, hid ▸ hjoin.lowerId, hf ▸ hjoin.lowerCheckpoint,
        hjoin.upperId, hjoin.upperBlock, hjoin.parentId⟩
    · rintro a ha b hb
      obtain rfl := some_inj.1 hb
      exact hbelow a (hlink a ha l rfl)
  · intro x hx
    exact (hm.1 hx).elim (fun he => he ▸ hc) fun hx => h.covered x (hold hx)
  · intro x hx
    exact (hm.1 hx).elim (fun he => he ▸ hname) fun hx => h.named x (hold hx)
  · intro x hx
    exact (hm.1 hx).elim (fun he => he ▸ hs) fun hx => h.served x (hold hx)
  · rw [hseg, mem_insert, hid, ← h.mem_segments_other]
    constructor
    · rintro (rfl | ⟨x, hx, hxs⟩)
      · exact ⟨l', hm.2 (.inl rfl), rfl⟩
      · exact ⟨x, hm.2 (.inr hx), hxs⟩
    · rintro ⟨x, hx, rfl⟩
      rcases hm.1 hx with rfl | hx
      · exact .inl rfl
      · exact .inr ⟨x, hx, rfl⟩
  · rw [hgaps, ← h.mem_gaps_other]
    constructor
    · rintro (hgap | ⟨x, hx, hgap⟩)
      · exact ⟨l', hm.2 (.inl rfl), hgap⟩
      · exact ⟨x, hm.2 (.inr hx), hgap⟩
    · rintro ⟨x, hx, hgap⟩
      rcases hm.1 hx with rfl | hx
      · exact .inl hgap
      · exact .inr ⟨x, hx, hgap⟩

end Topology

/-! ### The effects on the links -/

/-- The blocks of links, from the lowest to the highest. -/
def linkBlocks (links : List Link) : List CatalogL1Block := links.flatMap Link.blocks

/-- The catalog has a topology that has taken up the blocks. -/
abbrev TakesUp (ext : Externals) (served : Set CatalogL1Block) (s : CatalogSnapshot)
    (links : List Link) (blocks : List CatalogL1Block) : Prop :=
  ∃ links', Topology ext served s links' ∧ (linkBlocks links').Perm (linkBlocks links ++ blocks)

variable {blocks : List CatalogL1Block} {last : CatalogBlockCheckpoint}

section Steps

variable {c : CatalogBlockReference} {segment : CoverageSegment}

section

variable (h : Topology ext served s links)

include h

/-- The cursor is the frontier of the highest link. -/
theorem Topology.exists_last (hc : Catalog.cursor s = some c) :
    ∃ pre l, links = pre ++ [l] ∧ l.segment.frontier = c := by
  rcases eq_nil_or_concat links with rfl | ⟨pre, l, rfl⟩
  · rw [h.cursor] at hc
    cases hc
  · rw [concat_eq_append] at h ⊢
    rw [h.cursor, getLast?_append, getLast?_singleton] at hc
    exact ⟨pre, l, rfl, some_inj.1 hc⟩

/-- There are no links before anything was read. -/
theorem Topology.eq_nil (hs : s.segments.records = []) : links = [] := by
  cases links with
  | nil => rfl
  | cons l _ =>
    have hm := (h.segments l.segment).2 ⟨l, mem_cons_self, rfl⟩
    rw [← mem_records, hs] at hm
    cases hm

/-- **Setting the target** changes only which segment reaches it. -/
theorem Topology.retarget (he : Retargets s blocks context s' target) : Topology ext served s'
      (links.map fun l => { l with segment := retargetSegment target l.segment }) := by
  refine ⟨?_, ?_, ?_, ?_, ?_, fun _ => ?_, fun gap => ?_, ?_⟩
  · refine (isChain_map _).2 (h.above.imp fun _ _ hab => ?_)
    obtain ⟨hslot, gap, hgap, hjoin⟩ := hab
    exact ⟨hslot, gap, hgap, hjoin.lowerId, hjoin.lowerCheckpoint, hjoin.upperId,
      hjoin.upperBlock, hjoin.parentId⟩
  · intro x hx
    obtain ⟨l, hl, rfl⟩ := mem_map.1 hx
    exact h.covered l hl
  · intro x hx
    rw [head?_map, Option.mem_def, Option.map_eq_some_iff] at hx
    obtain ⟨l, hl, rfl⟩ := hx
    obtain ⟨hn, hb⟩ := h.bottom l hl
    obtain ⟨_, hf, -⟩ := id hb
    have ha := he.advances
    rw [hf, Option.getD_some] at ha
    exact ⟨hn, hb.keep hf ha rfl rfl rfl⟩
  · intro x hx
    obtain ⟨l, hl, rfl⟩ := mem_map.1 hx
    exact h.named l hl
  · intro x hx
    obtain ⟨l, hl, rfl⟩ := mem_map.1 hx
    exact h.served l hl
  · rw [he.segments, mem_modifyAll]
    constructor
    · rintro ⟨old, hold, rfl⟩
      obtain ⟨l, hl, rfl⟩ := (h.segments old).1 hold
      exact ⟨_, mem_map_of_mem hl, rfl⟩
    · rintro ⟨x, hx, rfl⟩
      obtain ⟨l, hl, rfl⟩ := mem_map.1 hx
      exact ⟨l.segment, (h.segments _).2 ⟨l, hl, rfl⟩, rfl⟩
  · rw [he.gaps, h.gaps]
    constructor
    · rintro ⟨l, hl, hgap⟩
      exact ⟨_, mem_map_of_mem hl, hgap⟩
    · rintro ⟨_, hx, hgap⟩
      obtain ⟨l, hl, rfl⟩ := mem_map.1 hx
      exact ⟨l, hl, hgap⟩
  · rw [he.cursor, h.cursor, getLast?_map, Option.map_map]
    rfl

omit h in
/-- Blocks read at the end of a chain that ends at a cursor. -/
theorem Link.Covered.extend (h : l.Covered) {first : CatalogBlockCheckpoint}
    (hchain : ChainEnds blocks first last) (habove : l.segment.frontier.slot < first.slot)
    (hp : first.parentId = l.segment.frontier.blockId) :
    ChainEnds (l.blocks ++ blocks) l.segment.floor last := by
  obtain ⟨_, hends, hlast'⟩ := h
  rw [← hlast'] at habove hp
  exact hends.append hchain habove hp

/-- **Reading at the end of the highest segment.** -/
theorem Topology.extend {first : CatalogBlockCheckpoint}
    (he : Extends ext s blocks context s' segment first last target c f)
    (hserved : ∀ b ∈ blocks, b ∈ served) :
    TakesUp ext served s' links blocks := by
  obtain ⟨pre, l, rfl, hlc⟩ := h.exists_last he.start
  have hl : l ∈ pre ++ [l] := mem_append_right _ mem_cons_self
  obtain rfl : l.segment = segment :=
    he.active.unique _ ((h.segments _).2 ⟨l, hl, rfl⟩) hlc
  have hc := (h.covered l hl).extend he.chain (hlc ▸ he.above) (hlc ▸ he.parent)
  refine ⟨pre ++ [{ l with
    segment := { l.segment with
      frontier := blockReference last
      reachesTargetLib := decide (blockReference last = target) }
    blocks := l.blocks ++ blocks }], ?_, ?_⟩
  · refine h.replace rfl (fun a ha => ?_) (fun hne => absurd rfl hne) ⟨last, hc, rfl⟩
      (h.named l hl) ?_ ?_ he.segments (fun gap => ?_) ?_
    · obtain ⟨hslot, gap, hgap, hjoin⟩ := ha
      exact ⟨hslot, gap, hgap, hjoin.lowerId, hjoin.lowerCheckpoint, hjoin.upperId,
        hjoin.upperBlock, hjoin.parentId⟩
    · intro b hb
      exact (mem_append.1 hb).elim (h.served l hl b) (hserved b)
    · intro _ hx
      have hfloor : (if s.gaps.records = [] then f.advanceTo last else f).coverageFloor =
          f.coverageFloor := by split_ifs <;> rfl
      have hs : (if s.gaps.records = [] then f.advanceTo last else f).prefixStatus =
          f.prefixStatus := by split_ifs <;> rfl
      cases pre with
      | nil =>
        obtain rfl := some_inj.1 hx
        obtain ⟨hn, hbottom⟩ := h.bottom l rfl
        exact ⟨hn, hbottom.keep he.known he.advances hfloor hs rfl⟩
      | cons a _ =>
        obtain rfl := some_inj.1 hx
        obtain ⟨hn, hbottom⟩ := h.bottom a rfl
        exact ⟨hn, hbottom.keep he.known he.advances hfloor hs rfl⟩
    · rw [he.gaps]
      by_cases hgap : l.gap = some gap
      · simp [hgap, (h.gaps gap).2 ⟨l, hl, hgap⟩]
      · simp [hgap]
    · rw [he.cursor, getLast?_append, getLast?_singleton]
      rfl
  · simp [linkBlocks, flatMap_append]

/-- **A first segment.** -/
theorem Topology.first {first : CatalogBlockCheckpoint} (hno : s.segments.records = [])
    (hnoG : s.gaps.records = []) (hchain : ChainEnds blocks first last)
    (hs : ∀ b ∈ blocks, b ∈ served)
    (hseg : s'.segments = s.segments.insert (chainSegment first last target))
    (hgaps : s'.gaps = s.gaps) (hcur : Catalog.cursor s' = some (blockReference last))
    (hb : BottomOk s' ⟨none, chainSegment first last target, blocks⟩) :
    TakesUp ext served s' links blocks := by
  obtain rfl := h.eq_nil hno
  refine ⟨[⟨none, chainSegment first last target, blocks⟩], ?_, by simp [linkBlocks]⟩
  have hm : ∀ x ∈ s.segments, False := fun _ hx => by
    rw [← mem_records, hno] at hx
    cases hx
  refine ⟨isChain_singleton _, ?_, ?_, ?_, ?_, fun _ => ?_, fun gap => ?_, hcur⟩
  · intro l hl
    obtain rfl := mem_singleton.1 hl
    exact ⟨last, hchain, rfl⟩
  · intro l hl
    obtain rfl := some_inj.1 hl
    exact ⟨rfl, hb⟩
  · intro l hl
    obtain rfl := mem_singleton.1 hl
    rintro _ ⟨⟩
  · intro _ hl
    obtain rfl := mem_singleton.1 hl
    exact hs
  · rw [hseg, mem_insert]
    simp only [mem_singleton, exists_eq_left]
    exact ⟨fun hx => hx.elim Eq.symm fun hx => (hm _ hx.1).elim, fun hx => .inl hx.symm⟩
  · rw [hgaps, ← mem_records, hnoG]
    simp

theorem Topology.frontier_served (hl : l ∈ links) :
    l.segment.frontier.blockId ∈ servedIds served := by
  obtain ⟨_, hends, hlast⟩ := h.covered l hl
  obtain ⟨b, hb, rfl⟩ := hends.last_mem
  exact ⟨b, h.served l hl b hb, congrArg CatalogBlockReference.blockId hlast⟩

end

/-- The id of a gap below a new segment is new: a gap with that id would have that segment
above it. -/
theorem Topology.gapId_fresh (h : Topology ext served s links) (hash : NoCollisions ext served)
    (hs : ValidSnapshot s) (hl : l ∈ links) {first : CatalogBlockCheckpoint}
    (hfirst : first.blockId ∈ servedIds served)
    (hfresh : ∀ other ∈ s.segments, other.segmentId ≠ segmentIdForFloor first) :
    ∀ gap ∈ s.gaps, gap.gapId ≠ gapIdForBoundary ext l.segment.frontier first := by
  intro gap hgap hid
  obtain ⟨b, hb, hbgap⟩ := (h.gaps gap).1 hgap
  obtain ⟨upper, hupper, hseg, hgapId⟩ := h.named b hb gap hbgap
  obtain ⟨_, _, _, rfl, -, hjoin⟩ := h.exists_above hb hbgap
  have hlow : gap.lowerCheckpoint.blockId ∈ servedIds served := by
    rw [hjoin.lowerCheckpoint]
    exact h.frontier_served (mem_append_right _ mem_cons_self)
  have hsame : upper.blockId = first.blockId :=
    gapIdForBoundary_inj hash (hgapId.symm.trans hid) hlow (h.frontier_served hl) hupper hfirst
      (hs.gaps gap hgap).ok.lowerCheckpoint
      (hs.segments _ ((h.segments _).2 ⟨l, hl, rfl⟩)).frontierId
  exact hfresh b.segment ((h.segments _).2 ⟨b, hb, rfl⟩)
    (hseg.trans (segmentIdForFloor_congr hsame))

/-- **A link is added at the top.** -/
theorem Topology.push {n : Link}
    (h : Topology ext served s (pre ++ [l])) (habove : Above l n) (hgap : n.gap = some gap)
    (hc : n.Covered) (hname : n.Named ext served)
    (hs : ∀ b ∈ n.blocks, b ∈ served) (hbottom : ∀ x, BottomOk s x → BottomOk s' x)
    (hfresh : ∀ other ∈ s.segments, other.segmentId ≠ n.segment.segmentId)
    (hf : ∀ other ∈ s.gaps, other.gapId ≠ gap.gapId)
    (hseg : s'.segments = s.segments.insert n.segment)
    (hgaps : s'.gaps = s.gaps.insert gap)
    (hcur : Catalog.cursor s' = some n.segment.frontier) :
    Topology ext served s' (pre ++ [l] ++ [n]) := by
  refine ⟨?_, ?_, ?_, ?_, ?_, fun x => ?_, fun x => ?_, ?_⟩
  · refine isChain_append.2 ⟨h.above, isChain_singleton _, fun a ha _ hb => ?_⟩
    obtain rfl : l = a := by
      rw [getLast?_append, getLast?_singleton] at ha
      exact some_inj.1 ha
    obtain rfl := some_inj.1 hb
    exact habove
  · intro x hx
    rcases mem_append.1 hx with hx | hx
    · exact h.covered x hx
    · exact mem_singleton.1 hx ▸ hc
  · intro x hx
    rw [head?_append_of_ne_nil _ (by simp)] at hx
    exact ⟨(h.bottom x hx).1, hbottom x (h.bottom x hx).2⟩
  · intro x hx
    rcases mem_append.1 hx with hx | hx
    · exact h.named x hx
    · exact mem_singleton.1 hx ▸ hname
  · intro x hx
    rcases mem_append.1 hx with hx | hx
    · exact h.served x hx
    · exact mem_singleton.1 hx ▸ hs
  · rw [hseg, mem_insert]
    constructor
    · rintro (rfl | ⟨hx, -⟩)
      · exact ⟨_, mem_append_right _ mem_cons_self, rfl⟩
      · obtain ⟨y, hy, rfl⟩ := (h.segments x).1 hx
        exact ⟨y, mem_append_left _ hy, rfl⟩
    · rintro ⟨y, hy, rfl⟩
      rcases mem_append.1 hy with hy | hy
      · have hm : y.segment ∈ s.segments := (h.segments _).2 ⟨y, hy, rfl⟩
        exact .inr ⟨hm, hfresh _ hm⟩
      · exact .inl (congrArg _ (mem_singleton.1 hy))
  · rw [hgaps, mem_insert]
    constructor
    · rintro (rfl | ⟨hx, -⟩)
      · exact ⟨_, mem_append_right _ mem_cons_self, hgap⟩
      · obtain ⟨y, hy, hygap⟩ := (h.gaps x).1 hx
        exact ⟨y, mem_append_left _ hy, hygap⟩
    · rintro ⟨y, hy, hygap⟩
      rcases mem_append.1 hy with hy | hy
      · have hm : x ∈ s.gaps := (h.gaps _).2 ⟨y, hy, hygap⟩
        exact .inr ⟨hm, hf _ hm⟩
      · rw [mem_singleton.1 hy, hgap] at hygap
        exact .inl (some_inj.1 hygap).symm
  · rw [hcur, getLast?_append, getLast?_singleton]
    rfl

/-- **A segment above a gap.** -/
theorem Topology.openGap (h : Topology ext served s links) (hash : NoCollisions ext served)
    (hs : ValidSnapshot s) {first : CatalogBlockCheckpoint}
    {reason : CoverageGapReason}
    (he : OpensGap ext s blocks context s' segment first last target c f reason)
    (hserved : ∀ b ∈ blocks, b ∈ served) :
    TakesUp ext served s' links blocks := by
  obtain ⟨pre, l, rfl, rfl⟩ := h.exists_last he.start
  have hl : l ∈ pre ++ [l] := mem_append_right _ mem_cons_self
  have hlmem : l.segment ∈ s.segments := (h.segments _).2 ⟨l, hl, rfl⟩
  obtain rfl : l.segment = segment :=
    he.active.unique _ (mem_insert.2 (.inr ⟨hlmem, he.fresh _ hlmem⟩)) rfl
  have hfirst : first.blockId ∈ servedIds served := by
    obtain ⟨b, hb, hfirst⟩ := he.chain.first_mem
    exact ⟨b, hserved b hb, congrArg _ hfirst⟩
  refine ⟨_, h.push (n := ⟨some _, chainSegment first last target, blocks⟩)
    ⟨he.above, _, rfl, rfl, rfl, rfl, rfl, rfl⟩ rfl ⟨last, he.chain, rfl⟩ ?_ hserved
    (fun _ hx => hx.keep he.known he.advances rfl rfl rfl) he.fresh
    (h.gapId_fresh hash hs hl hfirst he.fresh) he.segments he.gaps he.cursor, ?_⟩
  · rintro _ ⟨⟩
    exact ⟨first, hfirst, rfl, rfl⟩
  · simp [linkBlocks, flatMap_append]

end Steps

section Repairs

theorem getLast?_replace {α β : Type} (f : α → β) {pre post : List α} {l l' : α} (h : f l' = f l) :
    (pre ++ l' :: post).getLast?.map f = (pre ++ l :: post).getLast?.map f := by
  cases post with
  | nil => simp [h]
  | cons _ _ => simp [getLast?_append, getLast?_cons_cons]

variable {gap' : CoverageGap} {reason : CoverageGapReason}

/-- Blocks read below a link. -/
theorem Link.Covered.prepend (h : l.Covered) {first : CatalogBlockCheckpoint}
    (hchain : ChainEnds blocks first last) (hbelow : last.slot < l.segment.floor.slot)
    (hp : l.segment.floor.parentId = last.blockId) :
    Link.Covered { l with
      segment := { l.segment with floor := first }
      blocks := blocks ++ l.blocks } := by
  obtain ⟨last', hends, hlast'⟩ := h
  exact ⟨last', hchain.append hends hbelow hp, hlast'⟩

variable (h : Topology ext served s links)

include h

/-- **Reading below the first segment.** -/
theorem Topology.repairPrefix {reached : Bool} {first : CatalogBlockCheckpoint}
    (he : RepairsPrefix ext s blocks context s' reached segment first last target f)
    (hs : ∀ b ∈ blocks, b ∈ served) :
    TakesUp ext served s' links blocks := by
  obtain ⟨x, hx, rfl⟩ := (h.segments segment).1 he.mem
  obtain ⟨l, rest, rfl⟩ := exists_cons_of_ne_nil (ne_nil_of_mem hx)
  have hl : l ∈ l :: rest := mem_cons_self
  obtain ⟨hn, _, hf', hfloor, -⟩ := h.bottom l rfl
  obtain rfl := some_inj.1 (he.known.symm.trans hf')
  -- the floor that the frontier names is the floor of the lowest segment only
  obtain rfl : x = l := by
    have hslot : x.segment.floor.slot = l.segment.floor.slot :=
      some_inj.1 (he.floor.symm.trans hfloor)
    exact h.eq_of_slot hx hl le_rfl (h.covered x hx).range hslot.ge
      (hslot.trans_le (h.covered l hl).range)
  refine ⟨[] ++ { x with
    segment := { x.segment with floor := first }
    blocks := blocks ++ x.blocks } :: rest, ?_, ?_⟩
  · refine Topology.replace (show Topology ext served s ([] ++ x :: rest) from h) rfl
      (fun _ ha => ?_) (fun _ => rfl)
      ((h.covered x hl).prepend he.chain he.below he.parent) (h.named x hl) ?_ ?_ he.segments
      (fun gap => ?_) ?_
    · obtain ⟨-, _, hgap, -⟩ := ha
      rw [hn] at hgap
      cases hgap
    · intro b hb
      exact (mem_append.1 hb).elim (hs b) (h.served x hl b)
    · rintro _ ⟨⟩
      refine ⟨hn, he.advances.bottomOk rfl ?_⟩
      have hbottom := he.bottom
      cases reached with
      | false => exact .inl rfl
      | true => exact .inr ⟨rfl, hbottom⟩
    · rw [he.gaps, hn]
      simp
    · rw [he.cursor, h.cursor]
      cases rest <;> rfl
  · simp only [linkBlocks, nil_append, flatMap_cons, append_assoc]
    rw [← append_assoc x.blocks]
    exact perm_append_comm

/-- The gaps after a new version of the gap below a link was written. -/
theorem Topology.mem_insert_gap (hl : l ∈ links)
    (hgap : l.gap = some gap) (hid : gap'.gapId = gap.gapId)
    (x : CoverageGap) :
    x ∈ s.gaps.insert gap' ↔ some gap' = some x ∨ x ∈ s.gaps ∧ l.gap ≠ some x := by
  have hm : gap ∈ s.gaps := (h.gaps gap).2 ⟨l, hl, hgap⟩
  rw [mem_insert, hgap, hid, some_inj, eq_comm]
  refine or_congr_right (and_congr_right fun hx => not_congr ?_)
  rw [some_inj]
  exact ⟨fun heq => eq_of_key_eq hm hx heq.symm, fun heq => heq ▸ rfl⟩

omit h in
/-- **A link above a gap is replaced**, with a new version of the gap. -/
theorem Topology.replaceAbove {b' : Link}
    (h : Topology ext served s (pre ++ a :: b :: post)) (hgap : b.gap = some gap)
    (hgap' : b'.gap = some gap') (hid : gap'.gapId = gap.gapId)
    (hlow : gap'.lowerCheckpoint = gap.lowerCheckpoint)
    (hsegmentId : b'.segment.segmentId = b.segment.segmentId)
    (hfrontier : b'.segment.frontier = b.segment.frontier)
    (habove : ∀ x, Above x b → Above x b') (hc : b'.Covered)
    (hs : ∀ y ∈ b'.blocks, y ∈ served) (hf : s.frontier = some f)
    (ha : Advances s context f target s') (hsegments : s'.segments = s.segments.insert b'.segment)
    (hgaps : s'.gaps = s.gaps.insert gap') (hcur : Catalog.cursor s' = Catalog.cursor s) :
    Topology ext served s' (pre ++ a :: b' :: post) := by
  have hb : b ∈ pre ++ a :: b :: post := by simp
  have hsplit : ∀ x : Link, pre ++ a :: x :: post = (pre ++ [a]) ++ x :: post := by simp
  rw [hsplit] at h hb ⊢
  refine h.replace hsegmentId habove (fun _ => hfrontier) hc ?_ hs ?_ hsegments
    (fun x => ?_) ?_
  · intro _ hg
    obtain rfl := some_inj.1 (hgap'.symm.trans hg)
    obtain ⟨upper, hupper, hseg, hgapId⟩ := h.named b hb gap hgap
    exact ⟨upper, hupper, hsegmentId.trans hseg, by rw [hid, hlow, hgapId]⟩
  · intro x hx
    rw [head?_append_of_ne_nil _ (by simp)] at hx
    obtain ⟨hn, hbottom⟩ := h.bottom x (by rwa [head?_append_of_ne_nil _ (by simp)])
    exact ⟨hn, hbottom.keep hf ha rfl rfl rfl⟩
  · rw [hgaps, hgap']
    exact h.mem_insert_gap hb hgap hid x
  · rw [hcur, h.cursor]
    exact (getLast?_replace (fun l : Link => l.segment.frontier) hfrontier).symm

/-- **Reading at the upper end of a gap.** -/
theorem Topology.shrink {upper : CoverageSegment} {first : CatalogBlockCheckpoint}
    (he : Shrinks ext s blocks context s' gap upper first last target f reason)
    (hs : ∀ b ∈ blocks, b ∈ served) :
    TakesUp ext served s' links blocks := by
  obtain ⟨b, hb, hgap⟩ := (h.gaps gap).1 he.gapMem
  obtain ⟨pre, a, post, rfl, _, hjoin⟩ := h.exists_above hb hgap
  obtain rfl : upper = b.segment := eq_of_key_eq he.upperMem
    ((h.segments _).2 ⟨b, hb, rfl⟩) (he.upperId.trans hjoin.upperId)
  refine ⟨pre ++ a :: { b with
    gap := some { gap.backOff reason context with
      upperBlock := blockReference first
      requiredParentId := first.parentId }
    segment := { b.segment with floor := first }
    blocks := blocks ++ b.blocks } :: post, ?_, ?_⟩
  · refine h.replaceAbove hgap rfl rfl rfl rfl rfl (fun _ hx => ?_)
      ((h.covered b hb).prepend he.chain he.below he.parent) ?_ he.known he.advances he.segments
      he.gaps he.cursor
    · obtain ⟨_, _, hgap', hjoin'⟩ := hx
      obtain rfl := some_inj.1 (hgap.symm.trans hgap')
      refine ⟨?_, _, rfl, hjoin'.lowerId, hjoin'.lowerCheckpoint, hjoin'.upperId, rfl, rfl⟩
      rw [← hjoin'.lowerCheckpoint]
      exact he.above
    · intro y hy
      exact (mem_append.1 hy).elim (hs y) (h.served b hb y)
  · simp only [linkBlocks, flatMap_append, flatMap_cons, append_assoc]
    refine (List.Perm.append_left _ (List.Perm.append_left _ ?_))
    rw [← append_assoc b.blocks]
    exact perm_append_comm

/-- **An attempt at a gap that has found nothing.** -/
theorem Topology.backOff (he : BacksOff s blocks context s' gap target f reason) :
    TakesUp ext served s' links blocks := by
  obtain ⟨b, hb, hgap⟩ := (h.gaps gap).1 he.gapMem
  obtain ⟨pre, a, post, rfl, _, _⟩ := h.exists_above hb hgap
  have hm : b.segment ∈ s.segments := (h.segments _).2 ⟨b, hb, rfl⟩
  refine ⟨pre ++ a :: { b with gap := some (gap.backOff reason context) } :: post, ?_, ?_⟩
  · refine h.replaceAbove hgap rfl rfl rfl rfl rfl (fun _ hx => ?_) (h.covered b hb)
      (h.served b hb) he.known he.advances ?_ he.gaps he.cursor
    · obtain ⟨hslot, _, hgap', hjoin'⟩ := hx
      obtain rfl := some_inj.1 (hgap.symm.trans hgap')
      exact ⟨hslot, _, rfl, hjoin'.lowerId, hjoin'.lowerCheckpoint, hjoin'.upperId,
        hjoin'.upperBlock, hjoin'.parentId⟩
    · rw [he.segments, insert_self hm]
  · rw [he.empty, append_nil]
    simp [linkBlocks, flatMap_append]

end Repairs

/-! ### Merging two links -/

section Merge

variable {old new : Text}

/-- A link whose gap is reattached. -/
def Link.reattach (old new : Text) (l : Link) : Link :=
  { l with gap := l.gap.map (reattachGap old new) }

/-- Neighbours stay neighbours when the lower one takes over the segment `old`. -/
theorem Above.reattach {a' b' : Link} (h : Above a b) (hb : b.segment.segmentId ≠ old)
    (haId : a'.segment.segmentId = if a.segment.segmentId = old then new else a.segment.segmentId)
    (haFr : a'.segment.frontier = a.segment.frontier)
    (hbId : b'.segment.segmentId = b.segment.segmentId)
    (hbFl : b'.segment.floor = b.segment.floor)
    (hgap' : b'.gap = b.gap.map (reattachGap old new)) : Above a' b' := by
  obtain ⟨_, _, hgap, hjoin⟩ := h
  rw [hgap, Option.map_some] at hgap'
  refine ⟨by rwa [haFr, hbFl], _, hgap', ?_, ?_, ?_, ?_, ?_⟩
  · rw [haId, reattachGap, hjoin.lowerId]
  · rw [haFr, reattachGap, hjoin.lowerCheckpoint]
  · rw [hbId, reattachGap, hjoin.upperId, if_neg hb]
  · rw [hbFl, reattachGap, hjoin.upperBlock]
  · rw [hbFl, reattachGap, hjoin.parentId]

/-- Two neighbours and the blocks between them, as one link. -/
def mergedLink (a b : Link) (blocks : List CatalogL1Block) : Link where
  gap := a.gap.map (reattachGap b.segment.segmentId a.segment.segmentId)
  segment :=
    { segmentId := a.segment.segmentId
      floor := a.segment.floor
      frontier := b.segment.frontier
      reachesTargetLib := b.segment.reachesTargetLib }
  blocks := a.blocks ++ blocks ++ b.blocks

/-- The links after the neighbours `a` and `b` have become one. -/
def mergeLinks (pre : List Link) (a b : Link) (post : List Link) (blocks : List CatalogL1Block) :
    List Link :=
  pre.map (Link.reattach b.segment.segmentId a.segment.segmentId) ++
    mergedLink a b blocks :: post.map (Link.reattach b.segment.segmentId a.segment.segmentId)

theorem mem_mergeLinks {x : Link} : x ∈ mergeLinks pre a b post blocks ↔ x = mergedLink a b blocks ∨
      ∃ l ∈ pre ++ post, l.reattach b.segment.segmentId a.segment.segmentId = x := by
  simp only [mergeLinks, mem_append, mem_cons, mem_map, or_and_right, exists_or]
  exact or_left_comm

theorem linkBlocks_mergeLinks : (linkBlocks (mergeLinks pre a b post blocks)).Perm
    (linkBlocks (pre ++ a :: b :: post) ++ blocks) := by
  have hs : ∀ l : List Link,
      (l.map (Link.reattach b.segment.segmentId a.segment.segmentId)).flatMap Link.blocks =
        l.flatMap Link.blocks := by
    intro _
    rw [flatMap_map]
    rfl
  simp only [linkBlocks, mergeLinks, flatMap_append, flatMap_cons, hs, mergedLink, append_assoc]
  refine List.Perm.append_left _ (List.Perm.append_left _ ?_)
  rw [← append_assoc b.blocks]
  exact perm_append_comm

theorem getLast?_mergeLinks :
    (mergeLinks pre a b post blocks).getLast?.map (fun l => l.segment.frontier) =
      (pre ++ a :: b :: post).getLast?.map fun l => l.segment.frontier := by
  have hpost : ((mergedLink a b blocks :: post.map
        (Link.reattach b.segment.segmentId a.segment.segmentId)).getLast?.map
          fun l => l.segment.frontier) =
      (a :: b :: post).getLast?.map fun l => l.segment.frontier := by
    rcases eq_nil_or_concat post with rfl | ⟨_, _, rfl⟩
    · rfl
    · simp [getLast?_cons, Link.reattach]
  rw [mergeLinks, getLast?_append_of_ne_nil _ (cons_ne_nil _ _),
    getLast?_append_of_ne_nil _ (cons_ne_nil _ _), hpost]

/-- The chain of links after a merge. -/
theorem isChain_mergeLinks (h : (pre ++ a :: b :: post).IsChain Above)
    (hid : ∀ x ∈ pre ++ a :: post, x.segment.segmentId ≠ b.segment.segmentId) :
    (mergeLinks pre a b post blocks).IsChain Above := by
  obtain ⟨hpre, hrest, hlink⟩ := isChain_append.1 h
  obtain ⟨-, hrest⟩ := isChain_cons.1 hrest
  obtain ⟨hhead, hpost⟩ := isChain_cons.1 hrest
  have hidPre : ∀ x ∈ pre, x.segment.segmentId ≠ b.segment.segmentId := fun x hx =>
    hid x (mem_append_left _ hx)
  have hidP : ∀ x ∈ post, x.segment.segmentId ≠ b.segment.segmentId := fun x hx =>
    hid x (mem_append_right _ (mem_cons_of_mem _ hx))
  refine isChain_append.2 ⟨?_, isChain_cons.2 ⟨?_, ?_⟩, ?_⟩
  · refine (isChain_map _).2 (hpre.imp_of_mem_imp fun x y hx hy hxy => ?_)
    exact hxy.reattach (hidPre y hy) (if_neg (hidPre x hx)).symm rfl rfl rfl rfl
  · intro y hy
    rw [head?_map, Option.mem_def, Option.map_eq_some_iff] at hy
    obtain ⟨x, hx, rfl⟩ := hy
    exact (hhead x hx).reattach (hidP x (mem_of_mem_head? hx)) (if_pos rfl).symm rfl rfl
      rfl rfl
  · refine (isChain_map _).2 (hpost.imp_of_mem_imp fun x y hx hy hxy => ?_)
    exact hxy.reattach (hidP y hy) (if_neg (hidP x hx)).symm rfl rfl rfl rfl
  · intro _ hx _ hy
    obtain rfl := some_inj.1 hy
    rw [getLast?_map, Option.mem_def, Option.map_eq_some_iff] at hx
    obtain ⟨z, hz, rfl⟩ := hx
    exact (hlink z hz a rfl).reattach (hid a (mem_append_right _ mem_cons_self))
      (if_neg (hidPre z (mem_of_getLast? hz))).symm rfl rfl rfl rfl

/-- The blocks of a gap join the blocks of its two links. -/
theorem Link.Covered.merge (ha : a.Covered) (hb : b.Covered)
    (hab : a.segment.frontier.slot < b.segment.floor.slot)
    (hlow : gap.lowerCheckpoint = a.segment.frontier)
    (hempty : blocks = [] → b.segment.floor.parentId = gap.lowerCheckpoint.blockId)
    (hf : blocks ≠ [] → ∃ first last, ChainEnds blocks first last ∧
      b.segment.floor.parentId = last.blockId ∧ last.slot < b.segment.floor.slot ∧
      gap.lowerCheckpoint.slot < first.slot ∧ first.parentId = gap.lowerCheckpoint.blockId) :
    (mergedLink a b blocks).Covered := by
  obtain ⟨_, hend, hlastA⟩ := ha
  obtain ⟨lastB, hendsB, hlastB⟩ := hb
  rw [hlow, ← hlastA] at hempty hf
  rw [← hlastA] at hab
  refine ⟨lastB, ?_, hlastB⟩
  by_cases hnil : blocks = []
  · have hblks : (mergedLink a b blocks).blocks = a.blocks ++ b.blocks := by
      simp [mergedLink, hnil]
    rw [hblks]
    exact hend.append hendsB hab (hempty hnil)
  · obtain ⟨_, _, hends, hp, hbelow, habove, hfirst⟩ := hf hnil
    exact (hend.append hends habove hfirst).append hendsB hbelow hp

/-- A reattached gap keeps its id and its lower end. -/
theorem Link.Named.reattach (h : l.Named ext served)
    (hid : l'.segment.segmentId = l.segment.segmentId)
    (hgap : l'.gap = l.gap.map (reattachGap old new)) : l'.Named ext served := by
  intro _ hm
  rw [hgap, Option.mem_def, Option.map_eq_some_iff] at hm
  obtain ⟨gap₀, hgap₀, rfl⟩ := hm
  obtain ⟨upper, hupper, hseg, hgapId⟩ := h gap₀ hgap₀
  exact ⟨upper, hupper, hid.trans hseg, hgapId⟩

/-- The segments other than those of two neighbours. -/
theorem Topology.mem_segments_others (h : Topology ext served s (pre ++ a :: b :: post)) :
    (∃ l ∈ pre ++ post, l.segment = segment) ↔
      (segment ∈ s.segments ∧ segment.segmentId ≠ a.segment.segmentId) ∧
        segment.segmentId ≠ b.segment.segmentId := by
  have hsplit : pre ++ a :: b :: post = (pre ++ [a]) ++ b :: post := by simp
  have h' := h
  rw [hsplit] at h'
  have hm : ∀ x, x ∈ pre ++ b :: post ↔ x = b ∨ x ∈ pre ++ post := fun _ =>
    perm_middle.mem_iff.trans mem_cons
  rw [← h.mem_segments_other]
  constructor
  · rintro ⟨l, hl, rfl⟩
    refine ⟨⟨l, (hm l).2 (.inr hl), rfl⟩, (h'.mem_segments_other.1 ⟨l, ?_, rfl⟩).2⟩
    simp only [mem_append, mem_singleton] at hl ⊢
    tauto
  · rintro ⟨⟨l, hl, rfl⟩, hne⟩
    rcases (hm l).1 hl with rfl | hl
    · exact absurd rfl hne
    · exact ⟨l, hl, rfl⟩

/-- **Closing a gap**: its two links become one. -/
theorem Topology.merge (h : Topology ext served s links)
    {lower upper : CoverageSegment} {confirmed : CatalogBlockCheckpoint} {v : WorkingCatalog}
    (he : Merges ext confirms s blocks context s' gap lower upper confirmed target f v)
    (hserved : ∀ b ∈ blocks, b ∈ served) :
    TakesUp ext served s' links blocks := by
  obtain ⟨b, hb, hgap⟩ := (h.gaps gap).1 he.gapMem
  obtain ⟨pre, a, post, rfl, hab, hjoin⟩ := h.exists_above hb hgap
  have ha : a ∈ pre ++ a :: b :: post := by simp
  obtain rfl : lower = a.segment := eq_of_key_eq he.lowerMem
    ((h.segments _).2 ⟨a, ha, rfl⟩) (he.lowerId.trans hjoin.lowerId)
  obtain rfl : upper = b.segment := eq_of_key_eq he.upperMem
    ((h.segments _).2 ⟨b, hb, rfl⟩) (he.upperId.trans hjoin.upperId)
  have hold : ∀ l ∈ pre ++ post, l ∈ pre ++ a :: b :: post := by
    intro l hl
    simp only [mem_append, mem_cons] at hl ⊢
    tauto
  have hsplit : pre ++ a :: b :: post = (pre ++ [a]) ++ b :: post := by simp
  have hsplit' : pre ++ a :: post = (pre ++ [a]) ++ post := by simp
  have h' := h
  rw [hsplit] at h'
  have hid : ∀ x ∈ pre ++ a :: post, x.segment.segmentId ≠ b.segment.segmentId := fun x hx =>
    (h'.mem_segments_other.1 ⟨x, hsplit' ▸ hx, rfl⟩).2
  have hidAB := hid a (mem_append_right _ mem_cons_self)
  refine ⟨mergeLinks pre a b post blocks, ⟨isChain_mergeLinks h.above hid, ?_, ?_, ?_, ?_,
    fun x => ?_, fun x => ?_, ?_⟩, linkBlocks_mergeLinks⟩
  · intro x hx
    rcases mem_mergeLinks.1 hx with rfl | ⟨l, hl, rfl⟩
    · exact (h.covered a ha).merge (h.covered b hb) hab.1 hjoin.lowerCheckpoint he.empty he.filled
    · exact h.covered l (hold l hl)
  · intro x hx
    have hfloor : (if ∃ cp ∈ f.checkpoint, cp.blockId =
        gap.lowerCheckpoint.blockId then f.advanceTo confirmed else f).coverageFloor =
          f.coverageFloor := by split_ifs <;> rfl
    have hs : (if ∃ cp ∈ f.checkpoint, cp.blockId =
        gap.lowerCheckpoint.blockId then f.advanceTo confirmed else f).prefixStatus =
          f.prefixStatus := by split_ifs <;> rfl
    cases pre with
    | nil =>
      obtain rfl := some_inj.1 hx
      obtain ⟨hn, hbottom⟩ := h.bottom a rfl
      exact ⟨by rw [mergedLink, hn]; rfl, hbottom.keep he.known he.advances hfloor hs rfl⟩
    | cons p _ =>
      obtain rfl := some_inj.1 hx
      obtain ⟨hn, hbottom⟩ := h.bottom p rfl
      exact ⟨by rw [Link.reattach, hn]; rfl, hbottom.keep he.known he.advances hfloor hs rfl⟩
  · intro x hx
    rcases mem_mergeLinks.1 hx with rfl | ⟨l, hl, rfl⟩
    · exact (h.named a ha).reattach rfl rfl
    · exact (h.named l (hold l hl)).reattach rfl rfl
  · intro _ hx
    rcases mem_mergeLinks.1 hx with rfl | ⟨l, hl, rfl⟩
    · intro y hy
      rcases mem_append.1 hy with hy | hy
      · exact (mem_append.1 hy).elim (h.served a ha y) (hserved y)
      · exact h.served b hb y hy
    · exact h.served l (hold l hl)
  · rw [he.segments, mem_erase, mem_insert, or_and_right, ← h.mem_segments_others]
    constructor
    · rintro (⟨rfl, -⟩ | ⟨l, hl, rfl⟩)
      · exact ⟨_, mem_mergeLinks.2 (.inl rfl), rfl⟩
      · exact ⟨_, mem_mergeLinks.2 (.inr ⟨l, hl, rfl⟩), rfl⟩
    · rintro ⟨y, hy, rfl⟩
      rcases mem_mergeLinks.1 hy with rfl | ⟨l, hl, rfl⟩
      · exact .inl ⟨rfl, hidAB⟩
      · exact .inr ⟨l, hl, rfl⟩
  · have ho : ∀ g, g ∈ s.gaps.erase gap.gapId ↔ ∃ l ∈ pre ++ a :: post, l.gap = some g := by
      intro g
      rw [mem_erase, hsplit', h'.mem_gaps_other, hgap, ne_eq, ne_eq, some_inj]
      refine and_congr_right fun hg => not_congr ?_
      exact ⟨fun heq => eq_of_key_eq he.gapMem hg heq.symm, fun heq => heq ▸ rfl⟩
    rw [he.gaps, mem_modifyAll]
    simp only [ho]
    constructor
    · rintro ⟨g, ⟨l, hl, hlgap⟩, rfl⟩
      have hgap' : l.gap.map (reattachGap b.segment.segmentId a.segment.segmentId) =
          some (reattachGap b.segment.segmentId a.segment.segmentId g) := by rw [hlgap]; rfl
      rcases mem_append.1 hl with hl | hl
      · exact ⟨_, mem_mergeLinks.2 (.inr ⟨l, mem_append_left _ hl, rfl⟩), hgap'⟩
      · rcases mem_cons.1 hl with rfl | hl
        · exact ⟨_, mem_mergeLinks.2 (.inl rfl), hgap'⟩
        · exact ⟨_, mem_mergeLinks.2 (.inr ⟨l, mem_append_right _ hl, rfl⟩), hgap'⟩
    · rintro ⟨_, hy, hygap⟩
      rcases mem_mergeLinks.1 hy with rfl | ⟨l, hl, rfl⟩
      all_goals obtain ⟨g, hg, rfl⟩ := Option.map_eq_some_iff.1 hygap
      · exact ⟨g, ⟨a, mem_append_right _ mem_cons_self, hg⟩, rfl⟩
      · refine ⟨g, ⟨l, ?_, hg⟩, rfl⟩
        simp only [mem_append, mem_cons] at hl ⊢
        tauto
  · rw [he.cursor, h.cursor, getLast?_mergeLinks]

end Merge

/-! ### Runs -/

section Runs

variable {confirms : CatalogSnapshot → CatalogRepairConfirmation → Prop}
  {metadata : CatalogMetadata} {log : List CatalogL1Block}

/-- **One step**: the links change with the catalog, and take up the blocks that are read. -/
theorem Topology.step (h : Topology ext served s links) (hash : NoCollisions ext served)
    (hs : ValidSnapshot s) (hserved : ∀ b ∈ blocks, b ∈ served)
    (he : Effect ext confirms s blocks context s') :
    TakesUp ext served s' links blocks := by
  cases he with
  | retarget _ he =>
    refine ⟨_, h.retarget he, ?_⟩
    rw [he.empty, append_nil, linkBlocks, flatMap_map]
    exact List.Perm.refl _
  | extend _ _ _ _ _ _ he => exact h.extend he hserved
  | start first _ _ _ he =>
    have hzero : first.slot = 0 := (validateGenesisBlock_eq_ok.1 he.genesis).1
    refine h.first he.noSegments he.noGaps he.chain hserved he.segments he.gaps he.cursor
      (he.advances.bottomOk ?_ (.inr ⟨rfl, he.genesis⟩))
    exact congrArg some hzero.symm
  | openGap _ _ _ _ _ _ _ he => exact h.openGap hash hs he hserved
  | openPrefix _ _ _ _ he =>
    exact h.first he.noSegments he.noGaps he.chain hserved he.segments he.gaps he.cursor
      (he.advances.bottomOk rfl (.inl rfl))
  | repairPrefix _ _ _ _ _ _ he => exact h.repairPrefix he hserved
  | merge _ _ _ _ _ _ _ he => exact h.merge he hserved
  | shrink _ _ _ _ _ _ _ he => exact h.shrink he hserved
  | backOff _ _ _ _ he => exact h.backOff he

/-- Every catalog of a run is valid. -/
theorem Run.valid (h : Run ext served confirms metadata log s) : ValidSnapshot s := by
  cases h with
  | new hnew => exact validSnapshot_iff.1 hnew
  | step _ hstep => exact hstep.effect.2.1

/-- **The coverage of every catalog of a run is a list of links** that hold the blocks read. -/
theorem Run.topology (hash : NoCollisions ext served) (h : Run ext served confirms metadata log s) :
    ∃ links, Topology ext served s links ∧ (linkBlocks links).Perm log := by
  induction h with
  | new =>
    refine ⟨[], ⟨isChain_nil, by simp, by simp, by simp, by simp, fun x => ?_, fun _ => ?_, rfl⟩,
      List.Perm.refl _⟩
    · simp [newCatalog]
    · simp [newCatalog]
  | step hrun hstep ih =>
    obtain ⟨_, htop, hlog⟩ := ih
    obtain ⟨hs, -, _, he⟩ := hstep.effect
    obtain ⟨links', htop', hlog'⟩ := htop.step hash hrun.valid hs he
    exact ⟨links', htop', hlog'.trans (hlog.append_right _)⟩

end Runs

/-! ### The shape of the coverage -/

/-- Two segments, one above the other, with none in between. -/
def Adjacent (segments : SegmentTable) (lower upper : CoverageSegment) : Prop :=
  lower ∈ segments ∧ upper ∈ segments ∧ lower.frontier.slot < upper.floor.slot ∧
    ∀ other ∈ segments, ¬ (lower.frontier.slot < other.floor.slot ∧
      other.frontier.slot < upper.floor.slot)

/-- **The shape of a catalog's coverage**: disjoint segments, one gap between each two that are
adjacent and no other, and the cursor at the end of the highest. -/
structure CoverageTopology (s : CatalogSnapshot) : Prop where
  ranges : ∀ a ∈ s.segments, a.floor.slot ≤ a.frontier.slot
  disjoint : ∀ a ∈ s.segments, ∀ b ∈ s.segments, a ≠ b →
    a.frontier.slot < b.floor.slot ∨ b.frontier.slot < a.floor.slot
  count : s.gaps.size = s.segments.size - 1
  between : ∀ a b, Adjacent s.segments a b → ∃! gap, gap ∈ s.gaps ∧ Joins gap a b
  joined : ∀ gap ∈ s.gaps, ∃ a b, Adjacent s.segments a b ∧ Joins gap a b
  cursor : ∀ c, cursor s = some c → ∃ a ∈ s.segments, a.frontier = c ∧
    ∀ b ∈ s.segments, b.frontier.slot ≤ c.slot
  noCursor : Catalog.cursor s = none ↔ s.segments.records = []

namespace Topology

variable (h : Topology ext served s links)

include h

/-- Adjacent segments belong to neighbours. -/
theorem above_of_adjacent {a b : CoverageSegment}
    (hab : Adjacent s.segments a b) : ∃ x ∈ links, ∃ y ∈ links, x.segment = a ∧ y.segment = b ∧
      Above x y := by
  obtain ⟨ha, hb, _, hn⟩ := hab
  obtain ⟨x, hx, rfl⟩ := (h.segments a).1 ha
  obtain ⟨y, hy, rfl⟩ := (h.segments b).1 hb
  have hxr := (h.covered x hx).range
  have hyr := (h.covered y hy).range
  obtain ⟨pre, post, rfl⟩ := append_of_mem hy
  have hpairs := (pairwise_append.1 h.ascending).2.1
  -- the lower segment comes before the upper one in the list
  have hxpre : x ∈ pre := by
    rcases mem_append.1 hx with hx | hx
    · exact hx
    · rcases mem_cons.1 hx with rfl | hx
      · omega
      · have hlt := (pairwise_cons.1 hpairs).1 x hx
        omega
  obtain ⟨pre, z, rfl⟩ := (eq_nil_or_concat pre).resolve_left (ne_nil_of_mem hxpre)
  rw [concat_eq_append] at hxpre hx hy h ⊢
  have hz : z ∈ pre ++ [z] ++ y :: post := by simp
  have hzy : Above z y := by
    have habove := h.above
    rw [append_assoc, singleton_append] at habove
    exact (isChain_append_cons_cons.1 habove).2.1
  rcases mem_append.1 hxpre with hxpre | hxpre
  · -- otherwise the neighbour lies between the two
    have hxz : x.segment.frontier.slot < z.segment.floor.slot := by
      have hpre := (pairwise_append.1 (pairwise_append.1 h.ascending).1).2.2
      exact hpre x hxpre z mem_cons_self
    exact absurd ⟨hxz, hzy.1⟩ (hn _ ((h.segments _).2 ⟨z, hz, rfl⟩))
  · obtain rfl := mem_singleton.1 hxpre
    exact ⟨x, hx, y, hy, rfl, rfl, hzy⟩

omit h in
/-- Neighbours have adjacent segments. -/
theorem adjacent_of_above (h : Topology ext served s (pre ++ a :: b :: post)) :
    Adjacent s.segments a.segment b.segment := by
  have ha : a ∈ pre ++ a :: b :: post := by simp
  have hb : b ∈ pre ++ a :: b :: post := by simp
  refine ⟨(h.segments _).2 ⟨a, ha, rfl⟩, (h.segments _).2 ⟨b, hb, rfl⟩,
    (isChain_append_cons_cons.1 h.above).2.1.1, fun other ho _ => ?_⟩
  obtain ⟨x, hx, rfl⟩ := (h.segments other).1 ho
  have hxr := (h.covered x hx).range
  have har := (h.covered a ha).range
  have hbr := (h.covered b hb).range
  obtain ⟨-, hrest, hcross⟩ := pairwise_append.1 h.ascending
  obtain ⟨-, hrest⟩ := pairwise_cons.1 hrest
  rcases mem_append.1 hx with hx | hx
  · have hlt := hcross x hx a mem_cons_self
    omega
  · rcases mem_cons.1 hx with rfl | hx
    · omega
    · rcases mem_cons.1 hx with rfl | hx
      · omega
      · have hlt := (pairwise_cons.1 hrest).1 x hx
        omega

/-- There is one gap less than there are segments. -/
theorem size_gaps : s.gaps.size = s.segments.size - 1 := by
  have hseg : s.segments.size = links.length := by
    have hn : (links.map Link.segment).Nodup :=
      (nodup_map_iff_inj_on h.nodup).2 fun a ha b hb heq =>
        h.eq_of_segmentId ha hb (congrArg _ heq)
    have hperm := records_perm hn fun x => by
      rw [h.segments, mem_map]
    rw [Table.size, hperm.length_eq, length_map]
  rw [hseg]
  cases links with
  | nil =>
    have hno : s.gaps.records = [] := eq_nil_iff_forall_not_mem.2 fun x hx => by
      obtain ⟨_, hl, -⟩ := (h.gaps x).1 hx
      cases hl
    rw [Table.size, hno]
    rfl
  | cons _ rest =>
    -- every link but the lowest has a gap of its own
    have hsome : ∀ x ∈ rest, ∃ gap, x.gap = some gap := by
      intro x hx
      obtain ⟨pre, _, rfl⟩ := append_of_mem hx
      rcases eq_nil_or_concat pre with rfl | ⟨_, y, rfl⟩
      · obtain ⟨-, gap, hgap, -⟩ := (isChain_cons.1 h.above).1 x rfl
        exact ⟨gap, hgap⟩
      · have habove := (isChain_cons.1 h.above).2
        rw [concat_eq_append, append_assoc, singleton_append] at habove
        obtain ⟨-, gap, hgap, -⟩ := (isChain_append_cons_cons.1 habove).2.1
        exact ⟨gap, hgap⟩
    have hn : (rest.map Link.gap).Nodup := by
      refine (nodup_map_iff_inj_on (nodup_cons.1 h.nodup).2).2 fun a ha _ hb heq => ?_
      obtain ⟨gap, hgap⟩ := hsome a ha
      exact h.eq_of_gap (mem_cons_of_mem _ ha) (mem_cons_of_mem _ hb) hgap (heq.symm.trans hgap)
    have hn' : (s.gaps.records.map some).Nodup :=
      (nodup_map_iff (Option.some_injective _)).2 s.gaps.nodup
    have hperm : (s.gaps.records.map some).Perm (rest.map Link.gap) := by
      refine (perm_ext_iff_of_nodup hn' hn).2 fun _ => ?_
      rw [mem_map, mem_map]
      constructor
      · rintro ⟨gap, hgap, rfl⟩
        obtain ⟨y, hy, hygap⟩ := (h.gaps gap).1 hgap
        rcases mem_cons.1 hy with rfl | hy
        · rw [(h.bottom y rfl).1] at hygap
          cases hygap
        · exact ⟨y, hy, hygap⟩
      · rintro ⟨y, hy, rfl⟩
        obtain ⟨gap, hgap⟩ := hsome y hy
        exact ⟨gap, (h.gaps gap).2 ⟨y, mem_cons_of_mem _ hy, hgap⟩, hgap.symm⟩
    have hlen := hperm.length_eq
    rw [length_map, length_map] at hlen
    rw [Table.size, hlen, length_cons, Nat.add_sub_cancel]

/-- The cursor is at the end of the highest segment. -/
theorem cursor_highest {c : CatalogBlockReference} (hc : Catalog.cursor s = some c) :
    ∃ a ∈ s.segments, a.frontier = c ∧ ∀ b ∈ s.segments, b.frontier.slot ≤ c.slot := by
  obtain ⟨pre, l, rfl, rfl⟩ := h.exists_last hc
  have hl : l ∈ pre ++ [l] := by simp
  refine ⟨l.segment, (h.segments _).2 ⟨l, hl, rfl⟩, rfl, fun b hb => ?_⟩
  obtain ⟨x, hx, rfl⟩ := (h.segments b).1 hb
  rcases mem_append.1 hx with hx | hx
  · have hlt := (pairwise_append.1 h.ascending).2.2 x hx l mem_cons_self
    exact (hlt.trans_le (h.covered l hl).range).le
  · rw [mem_singleton.1 hx]

theorem cursor_eq_none : Catalog.cursor s = none ↔ s.segments.records = [] := by
  rw [h.cursor, Option.map_eq_none_iff, getLast?_eq_none_iff]
  refine ⟨?_, h.eq_nil⟩
  rintro rfl
  refine eq_nil_iff_forall_not_mem.2 fun x hx => ?_
  obtain ⟨_, hl, -⟩ := (h.segments x).1 hx
  cases hl

/-- **The shape of the coverage**, read off its links. -/
theorem coverageTopology : CoverageTopology s := by
  refine ⟨fun a ha => ?_, fun a ha b hb hne => ?_, h.size_gaps, fun a b hab => ?_,
    fun gap hgap => ?_, fun _ hc => h.cursor_highest hc, h.cursor_eq_none⟩
  · obtain ⟨x, hx, rfl⟩ := (h.segments a).1 ha
    exact (h.covered x hx).range
  · obtain ⟨x, hx, rfl⟩ := (h.segments a).1 ha
    obtain ⟨y, hy, rfl⟩ := (h.segments b).1 hb
    exact (h.trichotomy hx hy).resolve_left fun heq => hne (heq ▸ rfl)
  · obtain ⟨_, _, y, hy, rfl, rfl, habove⟩ := h.above_of_adjacent hab
    obtain ⟨gap, hgap, hjoin⟩ := habove.2
    refine ⟨gap, ⟨(h.gaps gap).2 ⟨y, hy, hgap⟩, hjoin⟩, fun other ho => ?_⟩
    obtain ⟨_, hz, hzgap⟩ := (h.gaps other).1 ho.1
    obtain ⟨_, _, _, _, _, hzjoins⟩ := h.exists_above hz hzgap
    obtain rfl := h.eq_of_segmentId hz hy (hzjoins.upperId.symm.trans ho.2.upperId)
    exact some_inj.1 (hzgap.symm.trans hgap)
  · obtain ⟨b, hb, hbgap⟩ := (h.gaps gap).1 hgap
    obtain ⟨_, a, _, rfl, -, hjoin⟩ := h.exists_above hb hbgap
    exact ⟨a.segment, b.segment, h.adjacent_of_above, hjoin⟩

end Topology

/-- **The coverage keeps its shape.** In every catalog that is reached from a new one by
committing batches of the engine, whatever is served, found and confirmed, the segments are
disjoint, there is exactly one gap between each two adjacent ones, and reading goes on at the
end of the highest. -/
theorem run_coverageTopology {ext : Externals} {served : Set CatalogL1Block}
    {confirms : CatalogSnapshot → CatalogRepairConfirmation → Prop} {metadata : CatalogMetadata}
    {log : List CatalogL1Block} {s : CatalogSnapshot} (hash : NoCollisions ext served)
    (h : Run ext served confirms metadata log s) : CoverageTopology s := by
  obtain ⟨_, htopology, -⟩ := h.topology hash
  exact htopology.coverageTopology

/-- Collisions are looked for in a list of blocks. -/
theorem noCollisions_of_list (h : ∀ a ∈ blocks, ∀ b ∈ blocks, ∀ a' ∈ blocks, ∀ b' ∈ blocks,
      ext.sha256 (Text.bytes a.checkpoint.blockId ++ Text.bytes b.checkpoint.blockId) =
        ext.sha256 (Text.bytes a'.checkpoint.blockId ++ Text.bytes b'.checkpoint.blockId) →
      Text.bytes a.checkpoint.blockId ++ Text.bytes b.checkpoint.blockId =
        Text.bytes a'.checkpoint.blockId ++ Text.bytes b'.checkpoint.blockId) :
    NoCollisions ext {b | b ∈ blocks} := by
  rintro _ ⟨_, ⟨a, ha, rfl⟩, _, ⟨b, hb, rfl⟩, rfl⟩ _ ⟨_, ⟨a', ha', rfl⟩, _, ⟨b', hb', rfl⟩, rfl⟩
  exact h a ha b hb a' ha' b' hb'

/-- A run of two segments with a gap in between. -/
theorem run_coverageTopology_sample :
    ∃ log s, NoCollisions sampleExternals {b | b ∈ sampleGapRequests.flatMap Request.blocks} ∧
      Run sampleExternals {b | b ∈ sampleGapRequests.flatMap Request.blocks} (fun _ _ => True)
        sampleMetadata log s ∧ s.segments.size = 2 ∧ CoverageTopology s := by
  have hash : NoCollisions sampleExternals {b | b ∈ sampleGapRequests.flatMap Request.blocks} :=
    noCollisions_of_list (by decide +kernel)
  obtain ⟨⟨log, s⟩, hreplay, hsize⟩ : ∃ r,
      replay sampleExternals (newCatalog sampleMetadata) sampleGapRequests = some r ∧
        r.2.segments.size = 2 := by
    have hsome : (replay sampleExternals (newCatalog sampleMetadata) sampleGapRequests).map
        (fun r => r.2.segments.size) = some 2 := by decide +kernel
    exact Option.map_eq_some_iff.1 hsome
  have hrun := (Run.new (by decide)).replay (fun r hr _ hb => List.mem_flatMap.2 ⟨r, hr, hb⟩)
    (fun _ _ => trivial) hreplay
  exact ⟨_, s, hash, hrun, hsize, run_coverageTopology hash hrun⟩

end Catalog

end LogosInspector
