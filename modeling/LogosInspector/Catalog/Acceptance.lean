import LogosInspector.Catalog.Proposals

/-!
# When the store accepts what the engine proposes

The store accepts a batch of the engine unless it makes a committee with a member that is
named twice (`proposed_accepted_iff`). The keys of a configuration become the members of the
committee as they are, and the decoder does not require them to be different; the store does.
So a block with such a configuration can be decoded, and is never read: every attempt to read
it ends with a batch that the store refuses (`proposed_refused`).

Which configurations make a committee is a matter of the order of evidence: the last one that
is new and later than all others of its channel (`Prevails`, `membersNodup_iff`).
-/

namespace LogosInspector.Catalog

open List Option
open WorkingCatalog (fromSnapshot)

/-! ### Committees -/

variable {c : Text}

section Committees

/-- What is checked of a committee, apart from its members being different. -/
structure CommitteeShape (committee : SequencerCommitteeSummary) : Prop where
  members : ∀ member ∈ committee.members, IsLocalId member
  active : ∀ active ∈ committee.activeMember, active ∈ committee.members

/-- What is known of a channel makes a committee of valid members. -/
def ShapeOk (view : ChannelView) : Prop := ∀ committee ∈ view.committee, CommitteeShape committee

variable {view : ChannelView}

theorem ShapeOk.observe {o : ChannelObservation} (h : ShapeOk view) (ho : o.WellFormed) (slot : ℕ)
    (isLatest isLatestConfiguration : Bool) :
    ShapeOk (view.observe slot o isLatest isLatestConfiguration) := by
  unfold ChannelView.observe
  cases hk : o.kind with
  | configuration keys threshold =>
    cases isLatestConfiguration with
    | false => exact h
    | true =>
      rintro _ ⟨⟩
      refine ⟨ho.keys keys threshold hk, fun _ hac => ?_⟩
      rw [mem_def, filter_eq_some_iff] at hac
      simpa using hac.2
  | inscription =>
    have hs := ho.signer _ _ _ _ hk
    unfold ShapeOk at h ⊢
    cases hc : view.committee with
    | some committee =>
      rw [hc] at h
      obtain ⟨hmembers, _⟩ := h committee rfl
      simp only
      split_ifs with hcnt
      · rintro _ ⟨⟩
        refine ⟨hmembers, ?_⟩
        rintro _ ⟨⟩
        exact hcnt.2
      · exact h
    | none =>
      simp only
      split_ifs
      · rintro _ ⟨⟩
        refine ⟨?_, ?_⟩
        · intro _ hmem
          rw [mem_singleton.1 hmem]
          exact hs
        · rintro _ ⟨⟩
          exact mem_singleton_self _
      · rintro _ ⟨⟩
  | operation => exact h

/-- **The committee known of a channel has valid members**, and its active member is one. -/
theorem shapeOk_viewOf {history : List Observed} (hwell : ∀ x ∈ history, x.2.WellFormed)
    (c : Text) :
    ∀ view ∈ viewOf history c, ShapeOk view := by
  induction history using List.reverseRecOn with
  | nil => rintro _ ⟨⟩
  | append_singleton history x ih =>
    obtain ⟨hhist, hx⟩ := forall_mem_append.1 hwell
    have hold := ih hhist
    intro view hview
    rw [viewOf_concat, observeView] at hview
    split_ifs at hview
    · obtain rfl := some_inj.1 hview
      refine ShapeOk.observe ?_ (hx x (mem_singleton_self x)) _ _ _
      cases hb : viewOf history c with
      | none => rintro _ ⟨⟩
      | some before => exact hold before hb
    · exact hold view hview

/-- The members of the committee that is known of a channel are different. -/
def MembersNodup (view : Option ChannelView) : Prop :=
  ∀ v ∈ view, ∀ committee ∈ v.committee, committee.members.Nodup

theorem membersNodup_some : MembersNodup (some view) ↔
    ∀ committee ∈ view.committee, committee.members.Nodup := by
  simp only [MembersNodup, mem_def, Option.some.injEq, forall_eq']

theorem membersNodup_getD (view : Option ChannelView) :
    MembersNodup (some (view.getD .initial)) ↔ MembersNodup view := by
  cases view with
  | none =>
    refine ⟨fun _ => by rintro _ ⟨⟩, fun _ => ?_⟩
    rintro _ ⟨⟩ _ ⟨⟩
  | some _ => rfl

/-- Only a configuration that counts changes the members, but for the first of a channel. -/
theorem membersNodup_observe {o : ChannelObservation} (slot : ℕ)
    (isLatest isLatestConfiguration : Bool)
    (h : o.kind.isConfiguration = true → isLatestConfiguration = false) :
    MembersNodup (some (view.observe slot o isLatest isLatestConfiguration)) ↔
      MembersNodup (some view) := by
  rw [membersNodup_some, membersNodup_some]
  unfold ChannelView.observe
  cases hk : o.kind with
  | configuration =>
    rw [h (by rw [hk]; rfl)]
    rfl
  | inscription =>
    cases view.committee with
    | some _ | none =>
      simp only
      split_ifs <;> simp
  | operation => rfl

end Committees

/-! ### The configuration that counts in the end -/

variable {seen : List Observed}

section Prevails

variable {xs pre : List Observed} {x z : Observed}

/-- **A configuration that counts in the end**: of the operations `xs`, read after `seen`, it
is new when it is read, later than the configurations of its channel that were there and not
earlier than any of `xs`. -/
structure Prevails (seen xs pre : List Observed) (x : Observed) : Prop where
  new : IsNew (seen ++ pre) x
  above : ∀ y ∈ seen, y.2.kind.isConfiguration = true → y.2.channelId = x.2.channelId →
    evidenceOrder y.reference < evidenceOrder x.reference
  latest : ∀ y ∈ xs, y.2.kind.isConfiguration = true → y.2.channelId = x.2.channelId →
    evidenceOrder y.reference ≤ evidenceOrder x.reference

/-- The configurations of the channel `c` that count in the end have different keys. -/
def KeysNodup (c : Text) (seen xs : List Observed) : Prop :=
  ∀ pre x post keys threshold, xs = pre ++ x :: post → x.2.channelId = c →
    x.2.kind = .configuration keys threshold → Prevails seen xs pre x → keys.Nodup

/-- An operation that counts as the latest configuration of the channel `c`. -/
def Configures (c : Text) (seen : List Observed) (x : Observed) : Prop :=
  (x.2.channelId = c ∧ IsNew seen x) ∧ IsLatestConfiguration seen x

/-- The last operation of a list, or one before it. -/
theorem concat_eq_append_cons {post : List Observed} (h : xs ++ [z] = pre ++ x :: post) :
    (xs = pre ∧ z = x) ∨ ∃ post', xs = pre ++ x :: post' := by
  rcases eq_nil_or_concat post with rfl | ⟨post', _, rfl⟩
  · obtain ⟨rfl, hzx⟩ := append_inj' h rfl
    exact .inl ⟨rfl, singleton_inj.1 hzx⟩
  · rw [concat_eq_append, ← cons_append, ← append_assoc] at h
    exact .inr ⟨post', (append_inj' h rfl).1⟩

/-- A configuration that does not count is not later than one that counts in the end. -/
theorem Prevails.concat (hhist : Consistent (seen ++ (xs ++ [z])))
    (hz : ¬ Configures x.2.channelId (seen ++ xs) z) (h : Prevails seen xs pre x) :
    Prevails seen (xs ++ [z]) pre x := by
  refine ⟨h.new, h.above, fun y hy hcon hc => ?_⟩
  rcases mem_append.1 hy with hy | hy
  · exact h.latest y hy hcon hc
  obtain rfl := mem_singleton.1 hy
  -- every configuration that was there is not later than `x`
  have hall : ∀ w ∈ seen ++ xs, w.2.kind.isConfiguration = true → w.2.channelId = x.2.channelId →
      evidenceOrder w.reference ≤ evidenceOrder x.reference := by
    intro w hw hwconf hwc
    rcases mem_append.1 hw with hw | hw
    · exact (h.above w hw hwconf hwc).le
    · exact h.latest w hw hwconf hwc
  by_cases hnew : IsNew (seen ++ xs) y
  · have hnot : ¬ IsLatestConfiguration (seen ++ xs) y := fun hlate => hz ⟨⟨hc, hnew⟩, hlate⟩
    unfold IsLatestConfiguration at hnot
    push Not at hnot
    obtain ⟨w, hw, hwconf, hwc, hle⟩ := hnot hcon
    exact hle.trans (hall w hw hwconf (hwc.trans hc))
  · -- the same evidence was there
    unfold IsNew at hnew
    push Not at hnew
    obtain ⟨w, hw, hid⟩ := hnew
    have hw' : w ∈ seen ++ (xs ++ [y]) := by
      rw [← append_assoc]
      exact mem_append_left _ hw
    have hy' : y ∈ seen ++ (xs ++ [y]) := by simp
    have hs := hhist.same w hw' y hy' hid
    rw [← hs]
    refine hall w hw ((hhist.isConfiguration_iff hw' hy' hs).2 hcon) ?_
    exact (congrArg ZoneEvidenceReference.channelId hs).trans hc

/-- An operation that does not count changes nothing. -/
theorem keysNodup_concat_iff (hhist : Consistent (seen ++ (xs ++ [z])))
    (hz : ¬ Configures c (seen ++ xs) z) :
    KeysNodup c seen (xs ++ [z]) ↔ KeysNodup c seen xs := by
  constructor
  · rintro h pre x post keys threshold rfl rfl hk hpre
    exact h pre x (post ++ [z]) keys threshold (by simp) rfl hk (hpre.concat hhist hz)
  · rintro h pre x post keys threshold hsplit rfl hk hpre
    rcases concat_eq_append_cons hsplit with ⟨rfl, rfl⟩ | ⟨post', hpost⟩
    · -- the last operation would count
      refine absurd ⟨⟨rfl, hpre.new⟩, isConfiguration_of_kind hk, fun y hy hconf hc => ?_⟩ hz
      rcases mem_append.1 hy with hseen | hxs
      · exact hpre.above y hseen hconf hc
      · refine lt_of_le_of_ne (hpre.latest y (mem_append_left _ hxs) hconf hc) fun heq => ?_
        exact hpre.new y hy (evidenceOrder_inj heq)
    · exact h pre x post' keys threshold hpost rfl hk ⟨hpre.new, hpre.above,
        fun y hy => hpre.latest y (mem_append_left _ hy)⟩

/-- A configuration that counts is the one that counts in the end, so far. -/
theorem keysNodup_concat_of_configures {keys : List Text} {threshold : Text}
    (hk : z.2.kind = .configuration keys threshold) (hz : Configures c (seen ++ xs) z) :
    KeysNodup c seen (xs ++ [z]) ↔ keys.Nodup := by
  obtain ⟨⟨rfl, hnew⟩, -, hlate⟩ := hz
  constructor
  · intro h
    refine h xs z [] keys threshold rfl rfl hk ⟨hnew, fun y hy => ?_, fun y hy hconf hc => ?_⟩
    · exact hlate y (mem_append_left _ hy)
    · rcases mem_append.1 hy with hy | hy
      · exact (hlate y (mem_append_right _ hy) hconf hc).le
      · rw [mem_singleton.1 hy]
  · rintro hnodup pre x post keys' threshold' hsplit hc hkind' hpre
    rcases concat_eq_append_cons hsplit with ⟨rfl, rfl⟩ | ⟨_, hpost⟩
    · rw [hk] at hkind'
      cases hkind'
      exact hnodup
    · -- an earlier configuration is not later than this one
      have hx : x ∈ seen ++ xs := by simp [hpost]
      have hlt := hlate x hx (isConfiguration_of_kind hkind') hc
      have hle := hpre.latest z (by simp) (isConfiguration_of_kind hk) hc.symm
      exact absurd hle hlt.not_ge

/-- **The members of a committee are different** if the keys of the configuration that counts
in the end are. -/
theorem membersNodup_iff (hhist : Consistent (seen ++ xs)) (hold : MembersNodup (viewOf seen c)) :
    MembersNodup (viewOf (seen ++ xs) c) ↔ KeysNodup c seen xs := by
  induction xs using List.reverseRecOn with
  | nil =>
    rw [append_nil]
    exact ⟨fun _ _ _ _ _ _ hsplit => absurd hsplit (by simp), fun _ => hold⟩
  | append_singleton xs z ih =>
    have hb := ih (hhist.mono fun _ hy => by
      rw [← append_assoc]
      exact mem_append_left _ hy)
    rw [← append_assoc, viewOf_concat, observeView]
    by_cases hz : Configures c (seen ++ xs) z
    · -- the keys become the members
      obtain ⟨keys, threshold, hk⟩ : ∃ keys threshold,
          z.2.kind = .configuration keys threshold := by
        have hconf := hz.2.1
        cases hk : z.2.kind with
        | configuration keys threshold => exact ⟨keys, threshold, rfl⟩
        | inscription | operation => rw [hk] at hconf; cases hconf
      rw [keysNodup_concat_of_configures hk hz, if_pos hz.1, membersNodup_some,
        decide_eq_true hz.2, ChannelView.observe, hk]
      simp
    · rw [keysNodup_concat_iff hhist hz, ← hb]
      split_ifs with hcnt
      · rw [membersNodup_observe, membersNodup_getD]
        exact fun _ => decide_eq_false fun hlate => hz ⟨hcnt, hlate⟩
      · rfl

end Prevails

/-! ### The records of zones -/

variable {s s' : CatalogSnapshot}

/-- Something is known of a channel with an operation. -/
theorem viewOf_ne_none {history : List Observed} {x : Observed}
    (hhist : Consistent history) (hx : x ∈ history) : viewOf history x.2.channelId ≠ none := by
  induction history using List.reverseRecOn generalizing x with
  | nil => cases hx
  | append_singleton xs _ ih =>
    have hb : ∀ y ∈ xs, viewOf xs y.2.channelId ≠ none := fun y hy => by
      exact ih (hhist.mono fun _ ha => mem_append_left _ ha) hy
    rw [viewOf_concat, observeView]
    split_ifs with hcnt
    · exact some_ne_none _
    rcases mem_append.1 hx with hx | hx
    · exact hb x hx
    · -- the last operation does not count: its evidence was there
      obtain rfl := mem_singleton.1 hx
      have hnew : ¬ IsNew xs x := fun hnew => hcnt ⟨rfl, hnew⟩
      unfold IsNew at hnew
      push Not at hnew
      obtain ⟨y, hy, hid⟩ := hnew
      have hs := hhist.same y (mem_append_left _ hy) x (by simp) hid
      have hc : y.2.channelId = x.2.channelId := congrArg ZoneEvidenceReference.channelId hs
      rw [← hc]
      exact hb y hy

theorem l1Slot_le_of_evidenceOrder_le {a b : ZoneEvidenceReference}
    (h : evidenceOrder a ≤ evidenceOrder b) : a.l1Slot ≤ b.l1Slot := by
  rcases Prod.Lex.toLex_le_toLex.1 h with h | ⟨h, -⟩
  · exact le_of_lt h
  · exact le_of_eq h

/-- The latest evidence of a channel is where the channel was last seen. -/
theorem Settled.latest_l1Slot {zone : ZoneCatalogRecord} {latest : ZoneEvidenceReference}
    (h : Settled (fromSnapshot s') seen) (hkind : ∀ y ∈ seen, y.2.WellKinded)
    (hzone : zone ∈ s'.zones) (hlate : IsLast (channelEvidence s'.evidence zone.channelId) latest) :
    latest.l1Slot = zone.lastSeenSlot := by
  obtain ⟨hm, hmax⟩ := max?_eq_some_iff.1 (h.sums zone hzone).lastSeen
  refine le_antisymm ?_ ?_
  · obtain ⟨he, hc⟩ := mem_channelEvidence.1 hlate.mem
    obtain ⟨r, hr, hrc, hslot, hk⟩ := h.exists_primary hkind he
    refine hmax _ (mem_map.2 ⟨r, mem_primaryOf.2 ⟨?_, hk⟩, hslot⟩)
    exact mem_channelEvidence.2 ⟨hr, hrc.trans hc⟩
  · obtain ⟨r, hr, hslot⟩ := mem_map.1 hm
    rw [← hslot]
    exact l1Slot_le_of_evidenceOrder_le (hlate.last r (mem_primaryOf.1 hr).1)

/-- **The record of a zone passes its check** if the members of its committee are different. -/
theorem Settled.zoneIn_iff {zone : ZoneCatalogRecord}
    (h : Settled (fromSnapshot s') seen) (hkind : ∀ y ∈ seen, y.2.WellKinded)
    (hwell : ∀ y ∈ seen, y.2.WellFormed) (he : ∀ e ∈ s'.evidence, EvidenceIn s'.segments e)
    (hzone : zone ∈ s'.zones) :
    (ZoneIn s'.segments s'.evidence zone ∧
        zone.evidenceCount = evidenceCountOf s'.evidence zone.channelId) ↔
      MembersNodup (viewOf seen zone.channelId) := by
  have hshow := h.zones zone.channelId
  rw [show (fromSnapshot s').zones.find? zone.channelId = some zone from
    Table.find?_eq_some.2 ⟨hzone, rfl⟩] at hshow
  obtain ⟨view, hview, hshow⟩ := optionRel_some hshow
  have hcommittee : zone.sequencerCommittee = view.committee := hshow.committee
  rw [hview, membersNodup_some, ← hcommittee]
  constructor
  · intro hok committee hm
    exact (hok.1.ok.committee committee hm).nodup
  intro hnodup
  have hsums := h.sums zone hzone
  obtain ⟨latest, hlate, hid, hseg, -⟩ := hsums.latest
  obtain ⟨hm, hc⟩ := mem_channelEvidence.1 hlate.mem
  have hslot := h.latest_l1Slot hkind hzone hlate
  have hin := he latest hm
  obtain ⟨seg, hsegmentMem, hsegmentId, hrange⟩ := hin.segment
  refine ⟨⟨⟨hc ▸ hin.ok.channelId, ?_, ?_, fun committee hseats => ?_, hid ▸ hin.ok.id,
    hseg ▸ hin.ok.segmentId, ?_, ?_⟩, ⟨seg, hsegmentMem, hsegmentId.trans hseg.symm, ?_⟩,
    latest, hm, hid.symm, hc⟩, hsums.evidenceCount⟩
  · rw [hshow.unlabelled]
    rintro _ ⟨⟩
  · rw [hshow.noTipHash]
    rintro _ ⟨⟩
  · have hshape := shapeOk_viewOf hwell zone.channelId view hview committee (hcommittee ▸ hseats)
    exact ⟨hshape.members, hnodup committee hseats, hshape.active⟩
  · obtain ⟨hfirst, -⟩ := min?_eq_some_iff.1 hsums.firstSeen
    exact (max?_eq_some_iff.1 hsums.lastSeen).2 _ hfirst
  · rw [hsums.evidenceCount]
    exact length_pos_of_mem hlate.mem |>.ne'
  · rw [hsums.observed, ← hslot]
    exact hrange

/-- A catalog that is valid has committees of different members. -/
theorem Settled.membersNodup (h : Settled (fromSnapshot s) seen)
    (hs : ValidSnapshot s) (c : Text) : MembersNodup (viewOf seen c) := by
  intro _ hview committee hc
  have hshow := h.zones c
  rw [mem_def.1 hview] at hshow
  cases hzone : (fromSnapshot s).zones.find? c with rw [hzone] at hshow
  | none => cases hshow
  | some zone =>
    obtain ⟨_, hview', hshow⟩ := optionRel_some hshow
    cases hview'
    obtain ⟨hm, -⟩ := Table.find?_eq_some.1 hzone
    exact ((hs.zones zone hm).1.ok.committee committee (hshow.committee ▸ hc)).nodup

/-! ### Proposals that are accepted -/

section Accepted

variable {ext : Externals} {served : Set CatalogL1Block}
  {confirms : CatalogSnapshot → CatalogRepairConfirmation → Prop} {metadata : CatalogMetadata}
  {log blocks : List CatalogL1Block} {batch : CatalogBatch} {context : CatalogEngineContext}

/-- **The blocks make no committee with a member that is named twice**: a configuration that
comes after those of its channel in the catalog, and after which none comes in the blocks,
has different keys. -/
def ConfigurationsOk (ext : Externals) (s : CatalogSnapshot) (blocks : List CatalogL1Block) :
    Prop :=
  ∀ pre (x : Observed) post keys threshold, observations ext blocks = pre ++ x :: post →
    x.2.kind = .configuration keys threshold → IsNew pre x →
    ComesLast s.evidence (fun r => r.evidenceKind = .channelConfiguration) x.reference →
    (∀ y : Observed, y ∈ observations ext blocks → y.2.kind.isConfiguration = true →
      y.2.channelId = x.2.channelId → evidenceOrder y.reference ≤ evidenceOrder x.reference) →
    keys.Nodup

/-- The blocks are read after those of the log. -/
theorem wellKinded_append (y : Observed)
    (hy : y ∈ observations ext log ++ observations ext blocks) : y.2.WellKinded := by
  rw [← observations_append] at hy
  exact wellKinded_observations y hy

theorem wellFormed_append (y : Observed)
    (hy : y ∈ observations ext log ++ observations ext blocks) : y.2.WellFormed := by
  rw [← observations_append] at hy
  exact wellFormed_of_mem (mem_observations.1 hy).2

/-- What comes last in the catalog, in terms of what was read. -/
theorem Settled.comesLast_iff {seen : List Observed} {x : Observed}
    (h : Settled (fromSnapshot s) seen) (hkind : ∀ y ∈ seen, y.2.WellKinded) :
    ComesLast s.evidence (fun r => r.evidenceKind = .channelConfiguration) x.reference ↔
      ∀ y ∈ seen, y.2.kind.isConfiguration = true → y.2.channelId = x.2.channelId →
        evidenceOrder y.reference < evidenceOrder x.reference := by
  refine (h.toTracks.comesLast_iff (p := fun r => r.evidenceKind = .channelConfiguration)
    (fun r hr => by rw [hr]; decide) fun _ => Iff.rfl).trans ?_
  refine forall₂_congr fun y hy => imp_congr_left ?_
  exact (hkind y hy).configuration_iff

/-- The condition on the blocks, channel by channel. -/
theorem configurationsOk_iff (h : Settled (fromSnapshot s) (observations ext log))
    (h' : Settled (fromSnapshot s') (observations ext log ++ observations ext blocks)) :
    ConfigurationsOk ext s blocks ↔
      ∀ c, KeysNodup c (observations ext log) (observations ext blocks) := by
  constructor
  · rintro hok c pre x post keys threshold hsplit rfl hk hprevails
    refine hok pre x post keys threshold hsplit hk (fun y hy => ?_) ?_ hprevails.latest
    · exact hprevails.new y (mem_append_right _ hy)
    · exact (h.comesLast_iff wellKinded_observations).2 hprevails.above
  · intro hok pre x post keys threshold hsplit hk hnew hlast hlate
    have habove := (h.comesLast_iff wellKinded_observations).1 hlast
    have hx : x ∈ observations ext log ++ observations ext blocks := by simp [hsplit]
    refine hok _ pre x post keys threshold hsplit rfl hk ⟨fun y hy hid => ?_, habove, hlate⟩
    rcases mem_append.1 hy with hseen | hpre
    · -- the same evidence would come before itself
      have hy' := mem_append_left (observations ext blocks) hseen
      have hhist := h'.consistent wellKinded_append
      have hs := hhist.same y hy' x hx hid
      have hlt := habove y hseen ((hhist.isConfiguration_iff hy' hx hs).2
        (isConfiguration_of_kind hk)) (congrArg ZoneEvidenceReference.channelId hs)
      rw [hs] at hlt
      exact lt_irrefl _ hlt
    · exact hnew y hpre hid

/-- **The catalog after a step is valid** if the members of its committees are different. -/
theorem Effect.validSnapshot_iff (hash : NoCollisions ext served)
    (hdig : ∀ bytes, (ext.sha256 bytes).length = 32) (hhex : ServesHex served)
    (h : Run ext served confirms metadata log s) (hserved : ∀ b ∈ blocks, b ∈ served)
    (hsize : s.evidence.size + 2 * (observations ext blocks).length < 2 ^ 64)
    (he : Effect ext confirms s blocks context s') :
    ValidSnapshot s' ↔ ∀ zone ∈ s'.zones, MembersNodup
      (viewOf (observations ext log ++ observations ext blocks) zone.channelId) := by
  have hs := h.valid
  have hset := he.settled h.settled wellKinded_observations
  obtain ⟨_, htop, -⟩ := h.topology hash
  obtain ⟨_, htop', -⟩ := htop.step hash hs hserved he
  obtain ⟨_, _, hfile⟩ := he.files hs
  have hids : ∀ a ∈ s'.segments, IsLocalId a.segmentId := by
    intro a ha
    rcases he.segmentId ha with ⟨b, hb, hid⟩ | ⟨b, hb, hid⟩
    · exact hid ▸ (hs.segments b hb).id
    · exact hid ▸ isLocalId_segmentIdForFloor (hhex b (hserved b hb)).1
  have hgapIds : ∀ gap ∈ s'.gaps, IsLocalId gap.gapId := by
    intro _ hgap
    rcases he.gapId hgap with ⟨g, hg, hid⟩ | ⟨lower, upper, hid⟩
    · exact hid ▸ (hs.gaps g hg).ok.id
    · exact hid ▸ isLocalId_gapIdForBoundary hdig lower upper
  have hevidence := hfile.evidenceIn hs hids fun b hb => hhex b (hserved b hb)
  have hzones := fun zone (hzone : zone ∈ s'.zones) =>
    hset.zoneIn_iff wellKinded_append wellFormed_append hevidence hzone
  refine ⟨fun hs' zone hzone => (hzones zone hzone).1 (hs'.zones zone hzone), fun hnodup =>
    ⟨?_, ?_, hevidence, fun e he' => ?_, fun zone hzone => ?_, fun e he' => ?_, ?_⟩⟩
  · exact he.headOk htop htop' hhex hserved hs (h.scannedBelowCursor hash)
  · exact htop'.segmentOk hhex hids
  · have hcnt := evidenceCountOf_le s'.evidence e.channelId
    have hgrown := hfile.size_le
    omega
  · exact (hzones zone hzone).2 (hnodup zone hzone)
  · -- the channel of a piece of evidence is known
    obtain ⟨x, hx, hxe⟩ := (hset.evidence e.unfiled).1 ⟨e, he', rfl⟩
    have hc : x.2.channelId = e.channelId := by
      have hu : e.unfiled.channelId = x.2.channelId := by
        rcases mem_observationEvidence.1 hxe with h | ⟨-, h⟩ <;> rw [h] <;> rfl
      exact hu.symm
    have hview := viewOf_ne_none (hset.consistent wellKinded_append) hx
    have hshow := hset.zones x.2.channelId
    cases hzone : s'.zones.find? x.2.channelId with
    | none =>
      rw [show (fromSnapshot s').zones.find? x.2.channelId = none from hzone] at hshow
      cases hn : viewOf (observations ext log ++ observations ext blocks) x.2.channelId with
      | none => exact absurd hn hview
      | some _ =>
        rw [hn] at hshow
        cases hshow
    | some zone =>
      obtain ⟨hm, hid⟩ := Table.find?_eq_some.1 hzone
      exact ⟨zone, hm, hid.trans hc⟩
  · exact htop'.gapIn hhex hids hgapIds

/-- **When the store accepts what the engine proposes.** In a catalog that the engine has made,
and with blocks that were parsed from what a source served, a batch and the catalog it leads to
pass the store's checks if and only if the blocks make no committee with a member that is named
twice. That there are fewer than `2 ^ 64` pieces of evidence is a fact about memory. -/
theorem proposed_accepted_iff {ext : Externals} {served : Set CatalogL1Block}
    {confirms : CatalogSnapshot → CatalogRepairConfirmation → Prop} {metadata : CatalogMetadata}
    {log blocks : List CatalogL1Block} {s : CatalogSnapshot} {batch : CatalogBatch}
    (hash : NoCollisions ext served) (hdigest : ∀ bytes, (ext.sha256 bytes).length = 32)
    (hparsed : ∀ b ∈ served, ∃ value label, parseBlock value label = .ok b)
    (h : Run ext served confirms metadata log s)
    (hpropose : Proposes ext served confirms s blocks batch)
    (hsize : s.evidence.size + 2 * (observations ext blocks).length < 2 ^ 64) :
    (validateBatch batch = .ok () ∧ validateSnapshot (afterBatch s batch) = .ok ()) ↔
      ConfigurationsOk ext s blocks := by
  have hhex : ServesHex served := fun b hb => by
    obtain ⟨_, _, hparse⟩ := hparsed b hb
    exact parseBlock_eq_ok hparse
  obtain ⟨hserved, _, he⟩ := hpropose.effect
  have hsettled := he.settled h.settled wellKinded_observations
  have hvalid := he.validSnapshot_iff hash hdigest hhex h hserved hsize
  have hmembers := fun c => membersNodup_iff (hsettled.consistent wellKinded_append)
    (h.settled.membersNodup h.valid c)
  rw [validBatch_iff, validSnapshot_iff, configurationsOk_iff h.settled hsettled]
  constructor
  · rintro ⟨-, hs'⟩ c
    rw [← hmembers]
    exact hsettled.membersNodup hs' c
  · intro hkeys
    have hs' := hvalid.2 fun zone _ => (hmembers zone.channelId).2 (hkeys zone.channelId)
    exact ⟨hpropose.batchShape.validBatch h.valid hs', hs'⟩

/-- A proposal after a replay. -/
theorem exists_proposal_of_replay (ext : Externals) (served : Set CatalogL1Block)
    (metadata : CatalogMetadata) (requests : List Request) (req : Request) {β : Type}
    (f : CatalogSnapshot → List CatalogL1Block → CatalogBatch → β) {b : β}
    (hnew : validateSnapshot (newCatalog metadata) = .ok ())
    (hs : ∀ r ∈ requests ++ [req], ∀ b ∈ r.blocks, b ∈ served)
    (hreplay : (replay ext (newCatalog metadata) requests).map
      (fun r => (req.propose ext r.2).map fun p => f r.2 p.1 p.2) = some (some b)) :
    ∃ log s blocks batch, Run ext served (fun _ _ => True) metadata log s ∧
      Proposes ext served (fun _ _ => True) s blocks batch ∧ f s blocks batch = b := by
  obtain ⟨log, s, hrun, hpropose⟩ := exists_run_of_replay ext served metadata requests
    (fun r => (req.propose ext r.2).map fun p => f r.2 p.1 p.2) hnew
    (fun r hr => hs r (mem_append_left _ hr)) hreplay
  obtain ⟨⟨blocks, batch⟩, hp, hf⟩ := map_eq_some_iff.1 hpropose
  exact ⟨log, s, blocks, batch, hrun, Request.proposes (hs req (by simp)) (fun _ => trivial) hp, hf⟩

theorem length_sampleExternals_sha256 (bytes : List UInt8) :
    (sampleExternals.sha256 bytes).length = 32 := by
  simp only [sampleExternals, length_take, length_append, length_replicate]
  omega

/-- A batch that is accepted: it closes a gap, and the block in the gap is a configuration. -/
theorem proposed_accepted_sample :
    ∃ log s blocks batch, Run sampleExternals {b | b ∈ sampleChain} (fun _ _ => True)
        sampleMetadata log s ∧
      Proposes sampleExternals {b | b ∈ sampleChain} (fun _ _ => True) s blocks batch ∧
      blocks.map (·.checkpoint.slot) = [4] ∧ ConfigurationsOk sampleExternals s blocks := by
  have hash : NoCollisions sampleExternals {b | b ∈ sampleChain} :=
    noCollisions_of_list (by decide +kernel)
  have hparsed : ∀ b ∈ sampleChain, (parseBlock b.payload "").toOption.map
      CatalogL1Block.checkpoint = some b.checkpoint := by decide +kernel
  obtain ⟨log, s, blocks, batch, hrun, hpropose, heq⟩ := exists_proposal_of_replay sampleExternals
    {b | b ∈ sampleChain} sampleMetadata sampleRepairRequests.dropLast
    (sampleRepairRequests.getLast (by decide)) (fun s blocks batch =>
      (blocks.map (·.checkpoint.slot), decide (validateBatch batch = .ok ()),
        decide (validateSnapshot (afterBatch s batch) = .ok ()),
        decide (s.evidence.size + 2 * (observations sampleExternals blocks).length < 2 ^ 64)))
    (b := ([4], true, true, true)) (by decide)
    (by
      rw [List.dropLast_append_getLast]
      exact blocks_sampleRepairOf _ _ _) (by decide +kernel)
  simp only [Prod.mk.injEq, decide_eq_true_eq] at heq
  obtain ⟨hslots, hbatch, hsnapshot, hsize⟩ := heq
  exact ⟨log, s, blocks, batch, hrun, hpropose, hslots, (proposed_accepted_iff hash
    length_sampleExternals_sha256 (fun b hb => ⟨_, _, parseBlock_of_checkpoint (hparsed b hb)⟩)
    hrun hpropose hsize).1 ⟨hbatch, hsnapshot⟩⟩

/-- A first block with a configuration that names a key twice. -/
def sampleRefused : CatalogL1Block := sampleBlockOf 0 '0' 'f' [sampleConfiguration 'c' ["A", "A"]]

/-- **A batch that is refused**: the source serves the block, its operations can be decoded, the
engine proposes a batch, and neither the batch nor the catalog it leads to passes the checks. -/
theorem proposed_refused :
    NoCollisions sampleExternals {b | b ∈ [sampleRefused]} ∧
      (∃ value label, parseBlock value label = .ok sampleRefused) ∧
      (∃ operations, decodeBlockChannelOperations sampleExternals sampleRefused.payload =
        .ok operations) ∧
      ∃ log s blocks batch, Run sampleExternals {b | b ∈ [sampleRefused]} (fun _ _ => True)
          sampleMetadata log s ∧
        Proposes sampleExternals {b | b ∈ [sampleRefused]} (fun _ _ => True) s blocks batch ∧
        validateBatch batch ≠ .ok () ∧ validateSnapshot (afterBatch s batch) ≠ .ok () := by
  have hparsed : (parseBlock sampleRefused.payload "").toOption.map
      CatalogL1Block.checkpoint = some sampleRefused.checkpoint := by decide +kernel
  refine ⟨noCollisions_of_list (by decide +kernel),
    ⟨_, _, parseBlock_of_checkpoint hparsed⟩, ?_, ?_⟩
  · cases hdecoded : decodeBlockChannelOperations sampleExternals sampleRefused.payload with
    | ok operations => exact ⟨operations, rfl⟩
    | error _ =>
      have hsome : (decodeBlockChannelOperations sampleExternals
        sampleRefused.payload).toOption.isSome = true := by decide +kernel
      rw [hdecoded] at hsome
      cases hsome
  · obtain ⟨log, s, blocks, batch, hrun, hpropose, heq⟩ := exists_proposal_of_replay sampleExternals
      {b | b ∈ [sampleRefused]} sampleMetadata [.prepare ⟨9, sampleId '9'⟩ sampleContext]
      (.page [⟨sampleRefused, sampleSnapshot⟩] sampleContext) (fun s _ batch =>
        (decide (validateBatch batch = .ok ()),
          decide (validateSnapshot (afterBatch s batch) = .ok ())))
      (b := (false, false)) (by decide) (by simp [Request.blocks]) (by decide +kernel)
    simp only [Prod.mk.injEq, decide_eq_false_iff_not] at heq
    exact ⟨log, s, blocks, batch, hrun, hpropose, heq⟩

end Accepted

end LogosInspector.Catalog
