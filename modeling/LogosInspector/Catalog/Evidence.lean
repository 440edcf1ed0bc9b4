import LogosInspector.Catalog.Topology

/-!
# The evidence of a catalog

Reading an operation adds one or two pieces of evidence (`observationEvidence`), unless they
are there; reading blocks adds the evidence of their operations (`blockEvidence`). Nothing
ever removes evidence, and a merge only changes the segment it is filed under. So the
evidence of a catalog is the evidence of the blocks read (`Run.evidence`), and together with
the shape of the coverage this shows that a catalog which calls itself complete is
(`run_complete`).

The caches of the latest evidence of each channel are right at every point of a step
(`CachesOk`), so an operation counts as the latest of its channel exactly when its evidence
comes after all that is there (`ingestObservation_eq_ok`).
-/

namespace LogosInspector.Catalog

open List Table

/-! ### The evidence of an operation -/

/-- The piece of evidence that an operation is. -/
def primaryEvidence (block : CatalogL1Block) (segmentId : Text)
    (observation : ChannelObservation) : ZoneEvidenceReference :=
  evidenceReference observation block segmentId (observedEvidence observation.kind).1
    (observedEvidence observation.kind).2.1

/-- Whether an operation starts its channel. -/
def ChannelObservation.startsChannel (observation : ChannelObservation) : Bool :=
  (observedEvidence observation.kind).2.2.1

/-- Whether an operation is an inscription that is classified as conflicting. -/
def ChannelObservation.conflicting (observation : ChannelObservation) : Bool :=
  (observedEvidence observation.kind).2.2.2

/-- The evidence of an operation: the operation itself and, if it starts its channel, that the
channel was created. -/
def observationEvidence (block : CatalogL1Block) (segmentId : Text)
    (observation : ChannelObservation) : List ZoneEvidenceReference :=
  primaryEvidence block segmentId observation ::
    if observation.startsChannel then
      [evidenceReference observation block segmentId .channelCreated .presence]
    else []

/-- The channel operations of a block. -/
def blockObservations (ext : Externals) (block : CatalogL1Block) : List ChannelObservation :=
  match decodeBlockChannelOperations ext block.payload with
  | .ok operations => operations.map channelObservation
  | .error _ => []

/-- The channel operations of blocks, each with its block. -/
def observations (ext : Externals) (blocks : List CatalogL1Block) :
    List (CatalogL1Block × ChannelObservation) :=
  blocks.flatMap fun block => (blockObservations ext block).map (Prod.mk block)

/-- The evidence of the channel operations of a block. -/
def blockEvidence (ext : Externals) (segmentId : Text) (block : CatalogL1Block) :
    List ZoneEvidenceReference :=
  (blockObservations ext block).flatMap (observationEvidence block segmentId)

/-- The payload of a block can be read. -/
def Decodable (ext : Externals) (block : CatalogL1Block) : Prop :=
  ∃ operations, decodeBlockChannelOperations ext block.payload = .ok operations

variable {ext : Externals} {blocks : List CatalogL1Block} {o : ChannelObservation}
  {e : ZoneEvidenceReference}

theorem mem_observations
    {x : CatalogL1Block × ChannelObservation} :
    x ∈ observations ext blocks ↔ x.1 ∈ blocks ∧ x.2 ∈ blockObservations ext x.1 := by
  simp only [observations, mem_flatMap, mem_map]
  constructor
  · rintro ⟨_, hb, _, ho, rfl⟩
    exact ⟨hb, ho⟩
  · rintro ⟨hb, ho⟩
    exact ⟨x.1, hb, x.2, ho, rfl⟩

/-- The evidence of an inscription is that of a sequencer block, or of another inscription. -/
def ChannelObservation.WellKinded (o : ChannelObservation) : Prop :=
  match o.kind with
  | .inscription evidenceKind .. =>
    evidenceKind = .sequencerBlock ∨ evidenceKind = .rawInscription
  | _ => True

theorem wellKinded_of_mem {block : CatalogL1Block}
    (h : o ∈ blockObservations ext block) : o.WellKinded := by
  unfold blockObservations at h
  split at h
  case h_2 => cases h
  obtain ⟨operation, -, rfl⟩ := mem_map.1 h
  unfold channelObservation ChannelObservation.WellKinded
  cases operation.kind with
  | inscription _ _ _ classification =>
    cases classification <;> simp [inscriptionEvidenceKind]
  | configuration | deposit | withdraw => trivial

/-- No operation is the creation of a channel: that is a piece of evidence of its own. -/
theorem ChannelObservation.WellKinded.ne_channelCreated
    (h : o.WellKinded) : (observedEvidence o.kind).1 ≠ .channelCreated := by
  unfold ChannelObservation.WellKinded at h
  cases hk : o.kind <;> rw [hk] at h
  case inscription => rcases h with rfl | rfl <;> simp [observedEvidence]
  all_goals simp [observedEvidence]

/-- The configurations are the evidence of configurations. -/
theorem ChannelObservation.WellKinded.configuration_iff (h : o.WellKinded) :
    (observedEvidence o.kind).1 = .channelConfiguration ↔ o.kind.isConfiguration = true := by
  unfold ChannelObservation.WellKinded at h
  cases hk : o.kind <;> rw [hk] at h
  case inscription => rcases h with rfl | rfl <;>
    simp [observedEvidence, ChannelObservationKind.isConfiguration]
  all_goals simp [observedEvidence, ChannelObservationKind.isConfiguration]

/-! ### Adding a piece of evidence -/

variable {w w' : WorkingCatalog}

section Insert

variable {isNew : Bool}

variable (h : insertEvidence w e = .ok (w', isNew))

include h

/-- A piece of evidence is there already, or it is added. -/
theorem insertEvidence_eq_ok : (isNew = false ∧ e ∈ w.evidence ∧ w' = w) ∨
      (isNew = true ∧ (∀ r ∈ w.evidence, r.evidenceId ≠ e.evidenceId) ∧
        w' = { w with
          evidence := w.evidence.insert e
          latestPrimaryEvidence :=
            if e.evidenceKind ≠ .channelCreated then
              updateLatestEvidenceId w.latestPrimaryEvidence w.evidence e
            else w.latestPrimaryEvidence
          latestConfigurationEvidence :=
            if e.evidenceKind = .channelConfiguration then
              updateLatestEvidenceId w.latestConfigurationEvidence w.evidence e
            else w.latestConfigurationEvidence }) := by
  unfold insertEvidence at h
  split at h
  · next existing hf =>
    split_ifs at h with hs
    cases h
    obtain ⟨hm, -⟩ := find?_eq_some.1 hf
    exact .inl ⟨rfl, hs ▸ hm, rfl⟩
  · next hf =>
    cases h
    refine .inr ⟨rfl, find?_eq_none.1 hf, ?_⟩
    simp only [ite_and, updateLatestEvidenceId]

theorem mem_insertEvidence {x : ZoneEvidenceReference} :
    x ∈ w'.evidence ↔ x ∈ w.evidence ∨ x = e := by
  rcases insertEvidence_eq_ok h with ⟨-, hm, rfl⟩ | ⟨-, hfresh, rfl⟩
  · exact ⟨.inl, fun hx => hx.elim id fun hx => hx ▸ hm⟩
  · rw [mem_insert]
    constructor
    · rintro (rfl | ⟨hx, -⟩)
      · exact .inr rfl
      · exact .inl hx
    · rintro (hx | rfl)
      · exact .inr ⟨hx, hfresh x hx⟩
      · exact .inl rfl

theorem zones_insertEvidence : w'.zones = w.zones := by
  rcases insertEvidence_eq_ok h with ⟨-, -, rfl⟩ | ⟨-, -, rfl⟩ <;> rfl

end Insert

/-! ### The caches -/

/-- **A cache is right** about the pieces of evidence `q`: it names, for each channel that has
any, the latest. -/
structure CacheOk (latest : EvidenceIds) (q : ZoneEvidenceReference → Prop) : Prop where
  sound : ∀ entry ∈ latest, ∃ r, q r ∧ r.channelId = entry.1 ∧ r.evidenceId = entry.2 ∧
    ∀ x, q x → x.channelId = r.channelId → evidenceOrder x ≤ evidenceOrder r
  complete : ∀ r, q r → ∃ entry ∈ latest, entry.1 = r.channelId

theorem evidenceOrder_inj {r r' : ZoneEvidenceReference} (h : evidenceOrder r = evidenceOrder r') :
    r.evidenceId = r'.evidenceId := by
  simp only [evidenceOrder, toLex_inj, Prod.mk.injEq] at h
  exact h.2.2.2.2

namespace CacheOk

variable {latest : EvidenceIds} {evidence : EvidenceTable}
  {q q' : ZoneEvidenceReference → Prop} {c : ZoneEvidenceReference}

variable (h : CacheOk latest q)

include h

theorem congr (hq : ∀ r, q r ↔ q' r) : CacheOk latest q' := by
  have hqq : q = q' := funext fun r => propext (hq r)
  exact hqq ▸ h

/-- A cache tells what is later than all of the evidence it is about. -/
theorem isLater_iff (hq : ∀ r, q r → r ∈ evidence) :
    isLater latest evidence c = true ↔
      ∀ x, q x → x.channelId = c.channelId → evidenceOrder x < evidenceOrder c := by
  unfold isLater
  cases hf : latest.find? c.channelId with
  | none =>
    simp only [Option.bind_none, true_iff]
    intro x hx hc
    obtain ⟨entry, hentry, hid⟩ := h.complete x hx
    exact absurd (hid.trans hc) (find?_eq_none.1 hf entry hentry)
  | some entry =>
    obtain ⟨hentry, hkey⟩ := find?_eq_some.1 hf
    obtain ⟨r, hr, hrc, hrid, hmax⟩ := h.sound entry hentry
    have hl : evidence.find? entry.2 = some r := find?_eq_some.2 ⟨hq r hr, hrid⟩
    simp only [Option.bind_some, hl, decide_eq_true_eq]
    constructor
    · intro hlt x hx hxc
      exact (hmax x hx (hxc.trans (hkey.symm.trans hrc.symm))).trans_lt hlt
    · intro hall
      exact hall r hr (hrc.trans hkey)

/-- Updating a cache with one more piece of evidence. -/
theorem update (hq : ∀ r, q r → r ∈ evidence) :
    CacheOk (updateLatestEvidenceId latest evidence c) (fun r => q r ∨ r = c) := by
  unfold updateLatestEvidenceId
  split_ifs with hlate
  · -- the new piece is the latest of its channel
    rw [h.isLater_iff hq] at hlate
    constructor
    · intro entry he
      rcases mem_insert.1 he with rfl | ⟨he, hne⟩
      · refine ⟨c, .inr rfl, rfl, rfl, ?_⟩
        rintro x (hx | rfl) hxc
        · exact (hlate x hx hxc).le
        · exact le_rfl
      · obtain ⟨r, hr, hrc, hrid, hmax⟩ := h.sound entry he
        refine ⟨r, .inl hr, hrc, hrid, ?_⟩
        rintro x (hx | rfl) hxc
        · exact hmax x hx hxc
        · exact absurd (hrc.symm.trans hxc.symm) hne
    · rintro r (hr | rfl)
      · obtain ⟨entry, he, hid⟩ := h.complete r hr
        by_cases hc : entry.1 = c.channelId
        · exact ⟨_, mem_insert_self _ _, hc.symm.trans hid⟩
        · exact ⟨entry, mem_insert.2 (.inr ⟨he, hc⟩), hid⟩
      · exact ⟨_, mem_insert_self _ _, rfl⟩
  · -- some other piece of the channel is later, or the same
    rw [h.isLater_iff hq] at hlate
    push Not at hlate
    obtain ⟨y, hy, hyc, hle⟩ := hlate
    constructor
    · intro entry he
      obtain ⟨r, hr, hrc, hrid, hmax⟩ := h.sound entry he
      refine ⟨r, .inl hr, hrc, hrid, ?_⟩
      rintro x (hx | rfl) hxc
      · exact hmax x hx hxc
      · exact hle.trans (hmax y hy (hyc.trans hxc))
    · rintro r (hr | rfl)
      · exact h.complete r hr
      · obtain ⟨entry, he, hid⟩ := h.complete y hy
        exact ⟨entry, he, hid.trans hyc⟩

end CacheOk

/-- **The caches of a working copy are right** about its evidence. -/
structure CachesOk (w : WorkingCatalog) : Prop where
  primary : CacheOk w.latestPrimaryEvidence
    (fun r => r ∈ w.evidence ∧ r.evidenceKind ≠ .channelCreated)
  configuration : CacheOk w.latestConfigurationEvidence
    (fun r => r ∈ w.evidence ∧ r.evidenceKind = .channelConfiguration)

variable {latest : EvidenceIds} {p : ZoneEvidenceReference → Prop}

/-- A cache that takes up, or passes over, one more piece of evidence. -/
theorem CacheOk.step {evidence : EvidenceTable}
    {q : ZoneEvidenceReference → Prop} [DecidablePred p]
    {c : ZoneEvidenceReference} (h : CacheOk latest (fun r => q r ∧ p r))
    (hq : ∀ r, q r → r ∈ evidence) :
    CacheOk (if p c then updateLatestEvidenceId latest evidence c else latest)
      (fun r => (q r ∨ r = c) ∧ p r) := by
  split_ifs with hc
  · refine (h.update fun r hr => hq r hr.1).congr fun r => ?_
    constructor
    · rintro (⟨hr, hpr⟩ | rfl)
      · exact ⟨.inl hr, hpr⟩
      · exact ⟨.inr rfl, hc⟩
    · rintro ⟨hr | rfl, hpr⟩
      · exact .inl ⟨hr, hpr⟩
      · exact .inr rfl
  · refine h.congr fun _ => ?_
    constructor
    · rintro ⟨hr, hpr⟩
      exact ⟨.inl hr, hpr⟩
    · rintro ⟨hr | rfl, hpr⟩
      · exact ⟨hr, hpr⟩
      · exact absurd hpr hc

theorem CachesOk.insertEvidence {isNew : Bool}
    (hw : CachesOk w) (h : Catalog.insertEvidence w e = .ok (w', isNew)) : CachesOk w' := by
  have hm := fun x => mem_insertEvidence h (x := x)
  rcases insertEvidence_eq_ok h with ⟨-, -, rfl⟩ | ⟨-, -, rfl⟩
  · exact hw
  · exact ⟨(hw.primary.step fun _ hr => hr).congr fun r => and_congr_left fun _ => (hm r).symm,
      (hw.configuration.step fun _ hr => hr).congr fun r => and_congr_left fun _ => (hm r).symm⟩

/-- The caches are right when the working copy is made. -/
theorem cachesOk_fromSnapshot (s : CatalogSnapshot) : CachesOk (WorkingCatalog.fromSnapshot s) := by
  -- after the pieces `seen` the caches are right about those
  have hfold : ∀ (rest seen : List ZoneEvidenceReference) (latest : EvidenceIds × EvidenceIds),
      (∀ r ∈ seen ++ rest, r ∈ s.evidence) →
      CacheOk latest.1 (fun r => r ∈ seen ∧ r.evidenceKind ≠ .channelCreated) →
      CacheOk latest.2 (fun r => r ∈ seen ∧ r.evidenceKind = .channelConfiguration) →
      CacheOk (rest.foldl (updateLatestEvidenceIds s.evidence) latest).1
          (fun r => r ∈ seen ++ rest ∧ r.evidenceKind ≠ .channelCreated) ∧
        CacheOk (rest.foldl (updateLatestEvidenceIds s.evidence) latest).2
          (fun r => r ∈ seen ++ rest ∧ r.evidenceKind = .channelConfiguration) := by
    intro rest
    induction rest with
    | nil =>
      intro seen latest _ h₁ h₂
      rw [append_nil]
      exact ⟨h₁, h₂⟩
    | cons r rest ih =>
      intro seen _ hall h₁ h₂
      have hseen : ∀ x, x ∈ seen → x ∈ s.evidence := fun x hx => hall x (mem_append_left _ hx)
      have hm : ∀ x, x ∈ seen ++ [r] ↔ x ∈ seen ∨ x = r := fun x => by simp
      have ha : seen ++ r :: rest = seen ++ [r] ++ rest := by simp
      rw [ha] at hall ⊢
      exact ih (seen ++ [r]) _ hall
        ((h₁.step hseen).congr fun x => and_congr_left fun _ => (hm x).symm)
        ((h₂.step hseen).congr fun x => and_congr_left fun _ => (hm x).symm)
  have hempty : ∀ p : ZoneEvidenceReference → Prop,
      CacheOk (Table.empty : EvidenceIds) (fun r => r ∈ ([] : List ZoneEvidenceReference) ∧ p r) :=
    fun _ => ⟨fun _ hentry => absurd hentry not_mem_empty, fun _ hr => absurd hr.1 not_mem_nil⟩
  obtain ⟨h₁, h₂⟩ := hfold s.evidence.records [] (Table.empty, Table.empty) (fun _ hr => hr)
    (hempty _) (hempty _)
  exact ⟨h₁, h₂⟩

/-! ### Reading an operation -/

/-- The evidence of a channel that is there comes before a piece of evidence. -/
def ComesLast (evidence : EvidenceTable) (p : ZoneEvidenceReference → Prop)
    (e : ZoneEvidenceReference) : Prop :=
  ∀ x ∈ evidence, p x → x.channelId = e.channelId → evidenceOrder x < evidenceOrder e

/-- The record of a channel after an operation. -/
def observedRecord (block : CatalogL1Block) (segmentId : Text) (targetSlot : ℕ)
    (context : CatalogEngineContext) (w : WorkingCatalog) (observation : ChannelObservation)
    (isLatest isLatestConfiguration : Bool) : ZoneCatalogRecord :=
  observeCommittee (observeOperation ((w.zones.find? observation.channelId).getD
        (newZoneRecord observation block segmentId targetSlot
          (primaryEvidence block segmentId observation).evidenceId context))
      block.checkpoint.slot targetSlot observation.conflicting context)
    block.checkpoint.slot observation.kind isLatest isLatestConfiguration

variable {segmentId : Text} {targetSlot : ℕ} {context : CatalogEngineContext}

section Observation

variable {block : CatalogL1Block}

/-- What a cache says of a piece of evidence that was just added. -/
theorem CacheOk.names_iff {evidence evidence' : EvidenceTable}
    (h : CacheOk latest (fun r => r ∈ evidence' ∧ p r))
    (hadd : ∀ r, r ∈ evidence' ∧ p r ↔ r ∈ evidence ∧ p r ∨ r = e)
    (hfresh : ∀ r ∈ evidence, r.evidenceId ≠ e.evidenceId) :
    latest.find? e.channelId = some (e.channelId, e.evidenceId) ↔ ComesLast evidence p e := by
  have he : e ∈ evidence' ∧ p e := (hadd e).2 (.inr rfl)
  rw [find?_eq_some, and_iff_left rfl]
  constructor
  · intro hentry x hx hpx hc
    obtain ⟨r, hr, -, hrid, hmax⟩ := h.sound _ hentry
    obtain rfl : r = e := eq_of_key_eq hr.1 he.1 hrid
    refine lt_of_le_of_ne (hmax x ((hadd x).2 (.inl ⟨hx, hpx⟩)) hc) fun heq => ?_
    exact hfresh x hx (evidenceOrder_inj heq)
  · intro hlast
    obtain ⟨entry, hentry, hid⟩ := h.complete e he
    obtain ⟨r, hr, hrc, hrid, hmax⟩ := h.sound entry hentry
    have hre : r = e := by
      rcases (hadd r).1 hr with ⟨hrmem, hpr⟩ | hre
      · exact absurd (hlast r hrmem hpr (hrc.trans hid))
          (hmax e he (hid.symm.trans hrc.symm)).not_gt
      · exact hre
    have hentry' : entry = (e.channelId, e.evidenceId) :=
      Prod.ext hid (by rw [← hrid, hre])
    exact hentry' ▸ hentry

/-- Adding the evidence that a channel was created. -/
theorem insertCreation_eq_ok (hw : CachesOk w)
    (h : insertCreation block segmentId w o o.startsChannel = .ok w') :
    CachesOk w' ∧ w'.zones = w.zones ∧
    ∀ x, x ∈ w'.evidence ↔ x ∈ w.evidence ∨ (o.startsChannel = true ∧
      x = evidenceReference o block segmentId .channelCreated .presence) := by
  unfold insertCreation at h
  split_ifs at h with hstart
  · obtain ⟨⟨_, _⟩, hi, rfl⟩ := map_eq_ok.1 h
    refine ⟨hw.insertEvidence hi, zones_insertEvidence hi, fun x => ?_⟩
    rw [mem_insertEvidence hi, and_iff_right hstart]
  · cases h
    exact ⟨hw, rfl, fun _ => by simp [hstart]⟩

theorem mem_observationEvidence {x : ZoneEvidenceReference} :
    x ∈ observationEvidence block segmentId o ↔ x = primaryEvidence block segmentId o ∨
      (o.startsChannel = true ∧
        x = evidenceReference o block segmentId .channelCreated .presence) := by
  unfold observationEvidence
  split_ifs with hstart <;> simp [hstart]

/-- **Reading an operation** adds its evidence. If the operation is new, it updates the record
of its channel: it counts as the latest if its evidence comes last. -/
theorem ingestObservation_eq_ok (hw : CachesOk w)
    (hkind : (observedEvidence o.kind).1 ≠ .channelCreated)
    (h : ingestObservation block segmentId targetSlot context w o = .ok w') :
    CachesOk w' ∧
    (∀ x, x ∈ w'.evidence ↔ x ∈ w.evidence ∨ x ∈ observationEvidence block segmentId o) ∧
    ((primaryEvidence block segmentId o ∈ w.evidence ∧ w'.zones = w.zones) ∨
      ((∀ r ∈ w.evidence, r.evidenceId ≠ (primaryEvidence block segmentId o).evidenceId) ∧
        ∃ isLatest isLatestConfiguration : Bool,
          (isLatest = true ↔ ComesLast w.evidence (·.evidenceKind ≠ .channelCreated)
            (primaryEvidence block segmentId o)) ∧
          (isLatestConfiguration = true ↔ o.kind.isConfiguration = true ∧
            ComesLast w.evidence (·.evidenceKind = .channelConfiguration)
              (primaryEvidence block segmentId o)) ∧
          w'.zones = w.zones.insert (observedRecord block segmentId targetSlot context w o isLatest
            isLatestConfiguration))) := by
  simp only [ingestObservation, bind_eq_ok] at h
  obtain ⟨⟨_, _⟩, hprimary, w₂, hc, h⟩ := h
  have hw₁ := hw.insertEvidence hprimary
  obtain ⟨hw₂, hzone₂, hmem₂⟩ := insertCreation_eq_ok hw₁ hc
  have hzone : w₂.zones = w.zones := hzone₂.trans (zones_insertEvidence hprimary)
  have hm : ∀ x, x ∈ w₂.evidence ↔ x ∈ w.evidence ∨ x ∈ observationEvidence block segmentId o :=
    fun _ => by rw [hmem₂, mem_insertEvidence hprimary, mem_observationEvidence, or_assoc]; rfl
  rcases insertEvidence_eq_ok hprimary with ⟨rfl, hold, -⟩ | ⟨rfl, hfresh, -⟩
  · cases h
    exact ⟨hw₂, hm, .inl ⟨hold, hzone⟩⟩
  · simp only [Bool.not_true, Bool.false_eq_true, if_false, pure_eq_ok] at h
    subst h
    -- the evidence that a channel was created is neither primary nor a configuration
    have hadd : ∀ p : ZoneEvidenceReference → Prop, p (primaryEvidence block segmentId o) →
        (∀ r, p r → r.evidenceKind ≠ .channelCreated) →
        ∀ r, r ∈ w₂.evidence ∧ p r ↔
          r ∈ w.evidence ∧ p r ∨ r = primaryEvidence block segmentId o := by
      intro _ hp hnot r
      rw [hm, mem_observationEvidence]
      constructor
      · rintro ⟨hr | rfl | ⟨-, rfl⟩, hpr⟩
        · exact .inl ⟨hr, hpr⟩
        · exact .inr rfl
        · exact absurd rfl (hnot _ hpr)
      · rintro (⟨hr, hpr⟩ | rfl)
        · exact ⟨.inl hr, hpr⟩
        · exact ⟨.inr (.inl rfl), hp⟩
    refine ⟨⟨hw₂.primary, hw₂.configuration⟩, hm, .inr ⟨hfresh, _, _, ?_, ?_,
      congrArg₂ Table.insert hzone (by rw [hzone]; rfl)⟩⟩
    · rw [beq_iff_eq]
      exact hw₂.primary.names_iff (hadd _ hkind fun r hr => hr) hfresh
    · rw [Bool.and_eq_true, beq_iff_eq]
      refine and_congr_right fun _ => ?_
      have hp : (primaryEvidence block segmentId o).evidenceKind = .channelConfiguration := by
        unfold primaryEvidence evidenceReference
        cases hk : o.kind <;> simp_all [observedEvidence, ChannelObservationKind.isConfiguration]
      exact hw₂.configuration.names_iff (hadd _ hp fun _ hr => by simp [hr]) hfresh

end Observation

/-! ### Computing records anew -/

section Recompute

variable {channels : IdSet}

/-- The record of a channel is computed anew from its evidence. -/
def Recomputed (evidence : EvidenceTable) (targetSlot : ℕ) (context : CatalogEngineContext)
    (channelId : Text) (record record' : Option ZoneCatalogRecord) : Prop :=
  ∃ old latest, record = some old ∧
    maxByKey evidenceOrder (channelEvidence evidence channelId) = some latest ∧
    record' = some (deriveZoneRecord old (channelEvidence evidence channelId) latest targetSlot
      context)

/-- Computing records anew changes the records of the channels and nothing else. -/
theorem recomputeZoneRecords_eq_ok
    (h : recomputeZoneRecords w channels targetSlot context = .ok w') :
    w' = { w with zones := w'.zones } ∧
    (∀ c ∈ channels, Recomputed w.evidence targetSlot context c (w.zones.find? c)
      (w'.zones.find? c)) ∧
    ∀ c, c ∉ channels → w'.zones.find? c = w.zones.find? c := by
  have hfold : ∀ (cs : List Text) (v v' : WorkingCatalog), cs.Nodup →
      cs.foldlM (recomputeZoneRecord targetSlot context) v = .ok v' →
      v' = { v with zones := v'.zones } ∧
      (∀ c ∈ cs, Recomputed v.evidence targetSlot context c (v.zones.find? c) (v'.zones.find? c)) ∧
      ∀ c, c ∉ cs → v'.zones.find? c = v.zones.find? c := by
    intro cs
    induction cs with
    | nil =>
      rintro v _ - ⟨⟩
      exact ⟨rfl, by simp, fun _ _ => rfl⟩
    | cons c _ ih =>
      intro v v' hnodup hrun
      obtain ⟨hc, hnodup⟩ := nodup_cons.1 hnodup
      simp only [foldlM_cons, bind_eq_ok, recomputeZoneRecord, required_eq_ok, pure_eq_ok] at hrun
      obtain ⟨_, ⟨latest, hlate, old, hold, rfl⟩, hrest⟩ := hrun
      obtain ⟨hs, hin, hout⟩ := ih _ v' hnodup hrest
      -- the record of the first channel is not touched again
      have hkey : (deriveZoneRecord old (channelEvidence v.evidence c) latest targetSlot
          context).channelId = c := (find?_eq_some.1 hold).2
      refine ⟨hs, fun x hx => ?_, fun x hx => ?_⟩
      · rcases mem_cons.1 hx with rfl | hx
        · refine ⟨old, latest, hold, hlate, ?_⟩
          rw [hout x hc, find?_insert, if_pos hkey.symm]
        · have hne : c ≠ x := fun heq => hc (heq ▸ hx)
          have hrec := hin x hx
          rwa [find?_insert, if_neg (hkey.trans_ne hne).symm] at hrec
      · obtain ⟨hne, hx⟩ := not_or.1 (mt mem_cons.2 hx)
        rw [hout x hx, find?_insert, if_neg fun heq => hne (heq.trans hkey)]
  exact hfold channels.records w w' channels.nodup h

end Recompute

/-! ### Reading blocks -/

/-- Read the operations of blocks, as operations of a segment. -/
def ingestObservations (segmentId : Text) (targetSlot : ℕ) (context : CatalogEngineContext)
    (w : WorkingCatalog) (observed : List (CatalogL1Block × ChannelObservation)) :
    CatalogEngineResult WorkingCatalog :=
  observed.foldlM
    (fun w x => ingestObservation x.1 segmentId targetSlot context w x.2) w

/-- Reading a block reads its operations. -/
theorem ingestBlock_eq_ok {s s' : WorkingCatalog × IdSet} {block : CatalogL1Block}
    (h : ingestBlock ext segmentId targetSlot context s block = .ok s') :
    Decodable ext block ∧
    ingestObservations segmentId targetSlot context s.1
      ((blockObservations ext block).map (Prod.mk block)) = .ok s'.1 ∧
    ∀ c, c ∈ s'.2 ↔ c ∈ s.2 ∨ ∃ o ∈ blockObservations ext block, o.channelId = c := by
  simp only [ingestBlock, bind_eq_ok, extractChannelObservations] at h
  obtain ⟨os, hos, h⟩ := h
  have hblk : Decodable ext block ∧ blockObservations ext block = os := by
    unfold Decodable blockObservations
    cases hdec : decodeBlockChannelOperations ext block.payload with
    | error _ =>
      rw [hdec] at hos
      cases hos
    | ok operations =>
      rw [hdec] at hos
      cases hos
      exact ⟨⟨_, rfl⟩, rfl⟩
  rw [hblk.2]
  refine ⟨hblk.1, ?_, ?_⟩
  · -- the channels touched do not matter to what is read
    clear hos hblk
    induction os generalizing s with
    | nil =>
      cases h
      rfl
    | cons _ _ ih =>
      simp only [foldlM_cons, bind_eq_ok, pure_eq_ok] at h
      obtain ⟨_, ⟨w₁, hw₁, rfl⟩, h⟩ := h
      simp only [ingestObservations, map_cons, foldlM_cons, bind_eq_ok]
      exact ⟨w₁, hw₁, ih h⟩
  · refine (foldlM_collect (I := fun _ => True) (H := fun t c => c ∈ t.2)
      (A := fun o c => o.channelId = c) h trivial fun _ o _ _ _ ht => ?_).2
    simp only [bind_eq_ok, pure_eq_ok] at ht
    obtain ⟨_, -, rfl⟩ := ht
    refine ⟨trivial, fun c => ?_⟩
    rw [mem_insert]
    constructor
    · rintro (rfl | ⟨hc, -⟩)
      · exact .inr rfl
      · exact .inl hc
    · rintro (hc | rfl)
      · by_cases heq : c = o.channelId
        · exact .inl heq
        · exact .inr ⟨hc, heq⟩
      · exact .inl rfl

/-- **Reading blocks** reads their operations, one after the other, and then computes the
records of the channels anew. -/
theorem ingestBlocks_eq_ok (h : ingestBlocks ext w blocks segmentId context = .ok w') :
    (∀ b ∈ blocks, Decodable ext b) ∧ ∃ target v channels,
      w.traversal.bind CatalogTraversal.targetLib = some target ∧
      ingestObservations segmentId target.slot context w (observations ext blocks) = .ok v ∧
      (∀ c, c ∈ channels ↔ ∃ x ∈ observations ext blocks, x.2.channelId = c) ∧
      recomputeZoneRecords v channels target.slot context = .ok w' := by
  simp only [ingestBlocks, bind_eq_ok, currentTargetInWorking, required_eq_ok] at h
  obtain ⟨target, htar, ⟨v, channels⟩, hfold, hrec⟩ := h
  have hdec : ∀ (bs : List CatalogL1Block) (s s' : WorkingCatalog × IdSet),
      bs.foldlM (ingestBlock ext segmentId target.slot context) s = .ok s' →
      (∀ b ∈ bs, Decodable ext b) ∧
        ingestObservations segmentId target.slot context s.1 (observations ext bs) = .ok s'.1 ∧
        ∀ c, c ∈ s'.2 ↔ c ∈ s.2 ∨ ∃ x ∈ observations ext bs, x.2.channelId = c := by
    intro bs
    induction bs with
    | nil =>
      rintro _ _ ⟨⟩
      exact ⟨by simp, rfl, fun c => by simp [observations]⟩
    | cons b bs ih =>
      intro _ s' hbs
      rw [foldlM_cons, bind_eq_ok] at hbs
      obtain ⟨mid, hmid, hbs⟩ := hbs
      obtain ⟨hb, hread, hc⟩ := ingestBlock_eq_ok hmid
      obtain ⟨hall, hrest, hc'⟩ := ih mid s' hbs
      have hcons : observations ext (b :: bs) =
          (blockObservations ext b).map (Prod.mk b) ++ observations ext bs := flatMap_cons
      refine ⟨forall_mem_cons.2 ⟨hb, hall⟩, ?_, fun c => ?_⟩
      · rw [hcons, ingestObservations, foldlM_append, bind_eq_ok]
        exact ⟨mid.1, hread, hrest⟩
      · rw [hc', hc, or_assoc, hcons]
        simp only [mem_append, or_and_right, exists_or, mem_map, exists_exists_and_eq_and]
  obtain ⟨hall, hread, hc⟩ := hdec blocks _ _ hfold
  refine ⟨hall, target, v, channels, htar, hread, fun _ => ?_, hrec⟩
  rw [hc, or_iff_right not_mem_empty]

/-- Reading operations adds their evidence. -/
theorem ingestObservations_evidence (hw : CachesOk w)
    (h : ingestObservations segmentId targetSlot context w (observations ext blocks) = .ok w') :
    CachesOk w' ∧ ∀ x, x ∈ w'.evidence ↔
      x ∈ w.evidence ∨ ∃ b ∈ blocks, x ∈ blockEvidence ext segmentId b := by
  obtain ⟨hw', hm⟩ := foldlM_collect (I := CachesOk) (H := fun t x => x ∈ t.evidence)
    (A := fun b x => x ∈ observationEvidence b.1 segmentId b.2) h hw
    fun _ b _ hb ht hstep => by
      have hk := (wellKinded_of_mem (mem_observations.1 hb).2).ne_channelCreated
      obtain ⟨ht', hm, -⟩ := ingestObservation_eq_ok ht hk hstep
      exact ⟨ht', hm⟩
  refine ⟨hw', fun _ => ?_⟩
  rw [hm]
  refine or_congr_right ⟨?_, ?_⟩
  · rintro ⟨⟨b, o⟩, hb, hx⟩
    obtain ⟨hb, ho⟩ := mem_observations.1 hb
    exact ⟨b, hb, mem_flatMap.2 ⟨o, ho, hx⟩⟩
  · rintro ⟨b, hb, hx⟩
    obtain ⟨o, ho, hx⟩ := mem_flatMap.1 hx
    exact ⟨(b, o), mem_observations.2 ⟨hb, ho⟩, hx⟩

/-- **Reading blocks adds the evidence of their operations.** -/
theorem Reads.evidence {v : WorkingCatalog} {s' : CatalogSnapshot} (hv : CachesOk v)
    (h : Reads ext v segmentId blocks context s') :
    (∀ b ∈ blocks, Decodable ext b) ∧ ∀ x, x ∈ s'.evidence ↔
      x ∈ v.evidence ∨ ∃ b ∈ blocks, x ∈ blockEvidence ext segmentId b := by
  obtain ⟨w, w', hl, hread, -, he⟩ := h
  obtain ⟨hdec, _, u, _, -, ho, -, hrec⟩ := ingestBlocks_eq_ok hread
  have hw : CachesOk w := by
    refine ⟨?_, ?_⟩
    · rw [hl.primary, hl.evidence]
      exact hv.primary
    · rw [hl.configuration, hl.evidence]
      exact hv.configuration
  obtain ⟨-, hm⟩ := ingestObservations_evidence hw ho
  obtain ⟨hs, -, -⟩ := recomputeZoneRecords_eq_ok hrec
  have hfin : w'.evidence = u.evidence := by rw [hs]
  refine ⟨hdec, fun _ => ?_⟩
  rw [he, hfin, hm, hl.evidence]

/-! ### Moving evidence to another segment -/

/-- A piece of evidence, whatever segment it is filed under. -/
def ZoneEvidenceReference.unfiled (e : ZoneEvidenceReference) : ZoneEvidenceReference :=
  { e with coverageSegmentId := [] }

theorem unfiled_moveEvidence (old new : Text) (e : ZoneEvidenceReference) :
    (moveEvidence old new e).unfiled = e.unfiled := by
  unfold moveEvidence
  split_ifs <;> rfl

/-- What does not depend on the segment is the same for evidence that differs only in it. -/
theorem congr_of_unfiled {β : Type} (f : ZoneEvidenceReference → β) (hf : ∀ e, f e.unfiled = f e)
    {e' : ZoneEvidenceReference} (h : e.unfiled = e'.unfiled) : f e = f e' := by
  rw [← hf e, h, hf e']

theorem moveEvidence_channelId (old new : Text) (e : ZoneEvidenceReference) :
    (moveEvidence old new e).channelId = e.channelId :=
  congr_of_unfiled (·.channelId) (fun _ => rfl) (unfiled_moveEvidence old new e)

theorem moveEvidence_evidenceKind (old new : Text) (e : ZoneEvidenceReference) :
    (moveEvidence old new e).evidenceKind = e.evidenceKind :=
  congr_of_unfiled (·.evidenceKind) (fun _ => rfl) (unfiled_moveEvidence old new e)

theorem evidenceOrder_moveEvidence (old new : Text) (e : ZoneEvidenceReference) :
    evidenceOrder (moveEvidence old new e) = evidenceOrder e :=
  congr_of_unfiled evidenceOrder (fun _ => rfl) (unfiled_moveEvidence old new e)

section Move

variable {v : WorkingCatalog} {old new : Text}

/-- A cache does not depend on the segments that evidence is filed under. -/
theorem CacheOk.move {evidence : EvidenceTable} (hp : ∀ r, p (moveEvidence old new r) ↔ p r)
    (h : CacheOk latest (fun r => r ∈ evidence ∧ p r)) :
    CacheOk latest (fun r => r ∈ evidence.modifyAll (moveEvidence old new)
      (moveEvidence_evidenceId old new) ∧ p r) := by
  constructor
  · intro entry hentry
    obtain ⟨r, ⟨hr, hpr⟩, hrc, hrid, hmax⟩ := h.sound entry hentry
    refine ⟨moveEvidence old new r, ⟨mem_modifyAll.2 ⟨r, hr, rfl⟩, (hp r).2 hpr⟩,
      (moveEvidence_channelId old new r).trans hrc,
      (moveEvidence_evidenceId old new r).trans hrid, ?_⟩
    rintro _ ⟨hx, hpx⟩ hxc
    obtain ⟨y, hy, rfl⟩ := mem_modifyAll.1 hx
    rw [moveEvidence_channelId, moveEvidence_channelId] at hxc
    rw [evidenceOrder_moveEvidence, evidenceOrder_moveEvidence]
    exact hmax y ⟨hy, (hp y).1 hpx⟩ hxc
  · rintro _ ⟨hr, hpr⟩
    obtain ⟨y, hy, rfl⟩ := mem_modifyAll.1 hr
    rw [moveEvidence_channelId]
    exact h.complete y ⟨hy, (hp y).1 hpr⟩

/-- Moving the evidence of a segment, and computing the records of its channels anew. -/
theorem reassignSegment_eq_ok (h : reassignSegment w old new context = .ok v) :
    ∃ target channels, w.traversal.bind CatalogTraversal.targetLib = some target ∧
      (∀ c, c ∈ channels ↔ ∃ e ∈ w.evidence, e.coverageSegmentId = old ∧ e.channelId = c) ∧
      recomputeZoneRecords
        { w with
          evidence := w.evidence.modifyAll (moveEvidence old new) (moveEvidence_evidenceId old new)
          zones := w.zones.modifyAll (moveZone old new context)
            (moveZone_channelId old new context) } channels target.slot context = .ok v := by
  simp only [reassignSegment, bind_eq_ok, currentTargetInWorking, required_eq_ok] at h
  obtain ⟨target, htar, hrec⟩ := h
  refine ⟨target, _, htar, fun _ => ?_, hrec⟩
  rw [← foldl_map (f := ZoneEvidenceReference.channelId) (g := Table.insert),
    ← Table.insertAll, ← map_id (List.map _ _),
    mem_insertAll_map (fun _ => rfl) (fun _ _ => rfl), or_iff_right not_mem_empty]
  simp only [map_id, mem_map, mem_filter, decide_eq_true_eq, mem_records, and_assoc]

theorem CachesOk.reassignSegment (hw : CachesOk w)
    (h : Catalog.reassignSegment w old new context = .ok v) :
    CachesOk v ∧ v.evidence = w.evidence.modifyAll (moveEvidence old new)
      (moveEvidence_evidenceId old new) := by
  obtain ⟨_, _, -, -, hrec⟩ := reassignSegment_eq_ok h
  obtain ⟨hs, -, -⟩ := recomputeZoneRecords_eq_ok hrec
  rw [hs]
  exact ⟨⟨hw.primary.move fun r => by rw [moveEvidence_evidenceKind],
    hw.configuration.move fun _ => by rw [moveEvidence_evidenceKind]⟩, rfl⟩

end Move

/-! ### The evidence of a run -/

section Runs

variable {served : Set CatalogL1Block}
  {confirms : CatalogSnapshot → CatalogRepairConfirmation → Prop} {metadata : CatalogMetadata}
  {log : List CatalogL1Block} {s s' : CatalogSnapshot}

theorem map_unfiled_blockEvidence (segmentId : Text) (block : CatalogL1Block) :
    (blockEvidence ext segmentId block).map ZoneEvidenceReference.unfiled =
      blockEvidence ext [] block := by
  have ho : ∀ o, (observationEvidence block segmentId o).map
      ZoneEvidenceReference.unfiled = observationEvidence block [] o := by
    intro _
    unfold observationEvidence
    split_ifs <;> rfl
  rw [blockEvidence, map_flatMap]
  simp only [ho]
  rfl

/-- What is in the evidence of a catalog, whatever segment it is filed under. -/
def HasEvidence (evidence : EvidenceTable) (e : ZoneEvidenceReference) : Prop :=
  ∃ x ∈ evidence, x.unfiled = e

theorem hasEvidence_move {evidence : EvidenceTable} {old new : Text} :
    HasEvidence (evidence.modifyAll (moveEvidence old new) (moveEvidence_evidenceId old new)) e ↔
      HasEvidence evidence e := by
  simp only [HasEvidence, mem_modifyAll]
  constructor
  · rintro ⟨_, ⟨x, hx, rfl⟩, rfl⟩
    exact ⟨x, hx, (unfiled_moveEvidence old new x).symm⟩
  · rintro ⟨x, hx, rfl⟩
    exact ⟨_, ⟨x, hx, rfl⟩, unfiled_moveEvidence old new x⟩

theorem Reads.hasEvidence {v : WorkingCatalog} (hv : CachesOk v)
    (h : Reads ext v segmentId blocks context s') (e : ZoneEvidenceReference) :
    HasEvidence s'.evidence e ↔
      HasEvidence v.evidence e ∨ ∃ b ∈ blocks, e ∈ blockEvidence ext [] b := by
  obtain ⟨-, hm⟩ := h.evidence hv
  have hu : ∀ b, e ∈ blockEvidence ext [] b ↔
      ∃ x ∈ blockEvidence ext segmentId b, x.unfiled = e := fun b => by
    rw [← map_unfiled_blockEvidence segmentId, mem_map]
  simp only [HasEvidence, hm, or_and_right, exists_or, hu]
  refine or_congr_right ⟨?_, ?_⟩
  · rintro ⟨x, ⟨b, hb, hx⟩, rfl⟩
    exact ⟨b, hb, x, hx, rfl⟩
  · rintro ⟨b, hb, x, hx, rfl⟩
    exact ⟨x, ⟨b, hb, hx⟩, rfl⟩

/-- What a step does to the evidence: it adds that of the blocks read. -/
structure Collects (ext : Externals) (s : CatalogSnapshot) (blocks : List CatalogL1Block)
    (s' : CatalogSnapshot) : Prop where
  decodable : ∀ b ∈ blocks, Decodable ext b
  evidence : ∀ e, HasEvidence s'.evidence e ↔
    HasEvidence s.evidence e ∨ ∃ b ∈ blocks, e ∈ blockEvidence ext [] b

theorem Reads.collects (h : Reads ext (WorkingCatalog.fromSnapshot s) segmentId blocks context s') :
    Collects ext s blocks s' :=
  ⟨(h.evidence (cachesOk_fromSnapshot s)).1, h.hasEvidence (cachesOk_fromSnapshot s)⟩

theorem collects_nil (h : s'.evidence = s.evidence) : Collects ext s [] s' :=
  ⟨by simp, fun _ => by simp [h]⟩

/-- **One step** adds the evidence of the blocks it reads. -/
theorem Effect.collects
    (he : Effect ext confirms s blocks context s') : Collects ext s blocks s' := by
  cases he with
  | retarget _ h | backOff _ _ _ _ h => exact h.empty ▸ collects_nil h.evidence
  | extend _ _ _ _ _ _ h | start _ _ _ _ h | openGap _ _ _ _ _ _ _ h | openPrefix _ _ _ _ h
  | repairPrefix _ _ _ _ _ _ h | shrink _ _ _ _ _ _ _ h => exact h.reads.collects
  | merge _ _ _ _ _ _ _ h =>
    obtain ⟨hv, hmove⟩ := (cachesOk_fromSnapshot s).reassignSegment h.moved
    refine ⟨(h.reads.evidence hv).1, fun _ => ?_⟩
    rw [h.reads.hasEvidence hv, hmove, hasEvidence_move]
    rfl

/-- **The evidence of every catalog of a run is the evidence of the blocks read.** -/
theorem Run.evidence (h : Run ext served confirms metadata log s) : (∀ b ∈ log, Decodable ext b) ∧
      ∀ e, HasEvidence s.evidence e ↔ ∃ b ∈ log, e ∈ blockEvidence ext [] b := by
  induction h with
  | new => exact ⟨by simp, fun e => by simp [HasEvidence, newCatalog]⟩
  | step _ hstep ih =>
    obtain ⟨-, -, _, he⟩ := hstep.effect
    have hcol := he.collects
    refine ⟨forall_mem_append.2 ⟨ih.1, hcol.decodable⟩, fun _ => ?_⟩
    rw [hcol.evidence, ih.2]
    simp only [mem_append, or_and_right, exists_or]

/-! ### Complete catalogs -/

theorem Effect.advances (he : Effect ext confirms s blocks context s') :
    ∃ f target, Advances s context f target s' := by
  cases he with
  | retarget _ h | extend _ _ _ _ _ _ h | start _ _ _ _ h | openGap _ _ _ _ _ _ _ h
  | openPrefix _ _ _ _ h | repairPrefix _ _ _ _ _ _ h | merge _ _ _ _ _ _ _ h
  | shrink _ _ _ _ _ _ _ h | backOff _ _ _ _ h => exact ⟨_, _, h.advances⟩

/-- The status of a catalog is computed from its segments and gaps and its own account of the
bottom. -/
theorem Run.covered (h : Run ext served confirms metadata log s) {f : CatalogFrontier}
    (hf : s.frontier = some f) :
    ∃ target, targetLib s = some target ∧ f = f.covered target s.segments s.gaps := by
  cases h with
  | new => cases hf
  | step _ hstep =>
    obtain ⟨-, -, _, he⟩ := hstep.effect
    obtain ⟨_, target, ha⟩ := he.advances
    refine ⟨target, ha.towards, ?_⟩
    obtain rfl := Option.some_inj.1 (hf.symm.trans ha.frontier)
    rfl

end Runs

/-- **A catalog that holds a chain of blocks**, from the block at slot `0` to the target: the
blocks read are those of the chain, and the evidence is the evidence of their operations. -/
structure HoldsChain (ext : Externals) (log : List CatalogL1Block) (s : CatalogSnapshot)
    (chain : List CatalogL1Block) : Prop where
  linked : IsBlockChain chain
  starts : ∃ first ∈ chain.head?, first.checkpoint.slot = 0 ∧ ∀ genesisId,
    s.metadata.networkScope = .genesisId genesisId → first.checkpoint.blockId = genesisId
  ends : ∃ last ∈ chain.getLast?, targetLib s = some (blockReference last.checkpoint)
  read : log.Perm chain
  once : log.Nodup
  decodable : ∀ b ∈ chain, Decodable ext b
  evidence : ∃ segment, s.segments.records = [segment] ∧
    ∀ e, e ∈ s.evidence ↔ ∃ b ∈ chain, e ∈ blockEvidence ext segment.segmentId b

/-- With one segment, everything is filed under it. -/
theorem mem_evidence_of_segment {s : CatalogSnapshot} (hs : ValidSnapshot s)
    {seg : CoverageSegment} (hseg : s.segments.records = [seg])
    (hall : ∀ e, HasEvidence s.evidence e ↔ ∃ b ∈ blocks, e ∈ blockEvidence ext [] b)
    (e : ZoneEvidenceReference) :
    e ∈ s.evidence ↔ ∃ b ∈ blocks, e ∈ blockEvidence ext seg.segmentId b := by
  have hfile : ∀ x ∈ s.evidence, x.coverageSegmentId = seg.segmentId := by
    intro x hx
    obtain ⟨_, ho, hid, -⟩ := (hs.evidence x hx).segment
    rw [← mem_records, hseg, mem_singleton] at ho
    rw [← hid, ho]
  have hblk : ∀ b, ∀ x ∈ blockEvidence ext seg.segmentId b,
      x.coverageSegmentId = seg.segmentId := by
    intro b x hx
    obtain ⟨_, -, hx⟩ := mem_flatMap.1 hx
    rcases mem_observationEvidence.1 hx with rfl | ⟨-, rfl⟩ <;> rfl
  have href : ∀ x y : ZoneEvidenceReference, x.coverageSegmentId = y.coverageSegmentId →
      x.unfiled = y.unfiled → x = y := by
    rintro ⟨_, _, _, _, _, _, _, _, _, _⟩ ⟨_, _, _, _, _, _, _, _, _, _⟩ _ heq
    simp_all [ZoneEvidenceReference.unfiled]
  constructor
  · intro he
    obtain ⟨b, hb, heb⟩ := (hall e.unfiled).1 ⟨e, he, rfl⟩
    rw [← map_unfiled_blockEvidence seg.segmentId] at heb
    obtain ⟨x, hx, heq⟩ := mem_map.1 heb
    obtain rfl := href x e ((hblk b x hx).trans (hfile e he).symm) heq
    exact ⟨b, hb, hx⟩
  · rintro ⟨b, hb, he⟩
    have hu : e.unfiled ∈ blockEvidence ext [] b := by
      rw [← map_unfiled_blockEvidence seg.segmentId]
      exact mem_map_of_mem he
    obtain ⟨x, hx, heq⟩ := (hall e.unfiled).2 ⟨b, hb, hu⟩
    obtain rfl := href x e ((hfile x hx).trans (hblk b e he).symm) heq
    exact hx

/-- **A catalog that calls itself complete is**: it holds one chain of blocks, from the block
at slot `0` to the target, each read once, and the evidence of exactly their operations. -/
theorem run_complete {ext : Externals} {served : Set CatalogL1Block}
    {confirms : CatalogSnapshot → CatalogRepairConfirmation → Prop} {metadata : CatalogMetadata}
    {log : List CatalogL1Block} {s : CatalogSnapshot} {f : CatalogFrontier}
    (hash : NoCollisions ext served) (h : Run ext served confirms metadata log s)
    (hf : s.frontier = some f) (hcomplete : f.coverageStatus = .complete) :
    ∃ chain, HoldsChain ext log s chain := by
  obtain ⟨links, htopology, hlog⟩ := h.topology hash
  obtain ⟨target, htarget, hcovered⟩ := h.covered hf
  obtain ⟨hdecodable, hevidence⟩ := h.evidence
  -- what the status says of segments, gaps and the bottom
  have hstatus : coverageStatusOf (reaches s.segments target) s.gaps f = .complete := by
    rw [hcovered] at hcomplete
    exact hcomplete
  unfold coverageStatusOf at hstatus
  split_ifs at hstatus with hall
  obtain ⟨hreaches, hgaps, hbelowFloor, -⟩ := hall
  obtain ⟨segment, hsegment, hreach⟩ := any_eq_true.1 hreaches
  rw [Bool.and_eq_true, decide_eq_true_eq] at hreach
  have hend : segment.frontier = target := hreach.2
  -- no gaps: there is one link
  obtain ⟨l, hl, rfl⟩ := (htopology.segments segment).1 hsegment
  obtain ⟨l', rfl⟩ : ∃ l', links = [l'] := by
    match links, htopology, hl with
    | [l'], _, _ => exact ⟨l', rfl⟩
    | a :: b :: post, htopology, _ =>
      obtain ⟨-, gap, hgap, -⟩ := (isChain_cons_cons.1 htopology.above).1
      have hmem : gap ∈ s.gaps := (htopology.gaps gap).2 ⟨b, by simp, hgap⟩
      rw [← mem_records, hgaps] at hmem
      cases hmem
  obtain rfl := mem_singleton.1 hl
  obtain ⟨_, hends, hlast⟩ := htopology.covered l hl
  obtain ⟨-, _, hg, -, hbottom⟩ := htopology.bottom l rfl
  obtain rfl := Option.some_inj.1 (hf.symm.trans hg)
  have hgenesis : validateGenesisBlock s l.segment.floor = .ok () := by
    rcases hbottom with hbottom | hbottom
    · rw [hbelowFloor] at hbottom
      cases hbottom
    · exact hbottom.2
  have hread : log.Perm l.blocks := by
    rw [linkBlocks, flatMap_singleton] at hlog
    exact hlog.symm
  have hone : s.segments.records = [l.segment] := by
    refine List.Perm.eq_singleton (records_perm (nodup_singleton _) fun _ => ?_)
    rw [htopology.segments, mem_singleton]
    simp [eq_comm]
  refine ⟨l.blocks, hends.chain, ?_, ?_, hread, hread.nodup_iff.2 hends.chain.nodup,
    fun b hb => hdecodable b (hread.mem_iff.2 hb), l.segment, hone, ?_⟩
  · obtain ⟨first, hfirst, hcheckpoint⟩ := Option.map_eq_some_iff.1 hends.head
    rw [← hcheckpoint] at hgenesis
    exact ⟨first, hfirst, validateGenesisBlock_eq_ok.1 hgenesis⟩
  · obtain ⟨final, hfinal, hcheckpoint⟩ := Option.map_eq_some_iff.1 hends.last
    refine ⟨final, hfinal, ?_⟩
    rw [hcheckpoint, hlast, hend, htarget]
  · refine mem_evidence_of_segment h.valid hone fun e => (hevidence e).trans ?_
    exact exists_congr fun _ => and_congr_left fun _ => hread.mem_iff

/-- A gap is opened and closed: the chain of three blocks is read out of order. -/
theorem run_complete_sample :
    ∃ log s f, NoCollisions sampleExternals {b | b ∈ sampleRepairRequests.flatMap Request.blocks} ∧
      Run sampleExternals {b | b ∈ sampleRepairRequests.flatMap Request.blocks} (fun _ _ => True)
        sampleMetadata log s ∧ s.frontier = some f ∧ f.coverageStatus = .complete ∧
      s.evidence.size = 4 ∧ ∃ chain, HoldsChain sampleExternals log s chain := by
  have hash : NoCollisions sampleExternals {b | b ∈ sampleRepairRequests.flatMap Request.blocks} :=
    noCollisions_of_list (by decide +kernel)
  obtain ⟨⟨log, s⟩, hreplay, hstatus⟩ : ∃ r,
      replay sampleExternals (newCatalog sampleMetadata) sampleRepairRequests = some r ∧
        (r.2.frontier.map CatalogFrontier.coverageStatus, r.2.evidence.size) =
          (some .complete, 4) := by
    have hsome : (replay sampleExternals (newCatalog sampleMetadata) sampleRepairRequests).map
        (fun r => (r.2.frontier.map CatalogFrontier.coverageStatus, r.2.evidence.size)) =
          some (some .complete, 4) := by decide +kernel
    exact Option.map_eq_some_iff.1 hsome
  obtain ⟨hstatus, hsize⟩ := Prod.mk.inj hstatus
  obtain ⟨f, hf, hcomplete⟩ := Option.map_eq_some_iff.1 hstatus
  have hrun := (Run.new (by decide)).replay (fun r hr _ hb => mem_flatMap.2 ⟨r, hr, hb⟩)
    (fun _ _ => trivial) hreplay
  exact ⟨_, s, f, hash, hrun, hf, hcomplete, hsize, run_complete hash hrun hf hcomplete⟩

end LogosInspector.Catalog
