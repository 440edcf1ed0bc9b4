import LogosInspector.Catalog.Evidence

/-!
# What a catalog says of a channel

The record of a channel is kept in two ways. Its counts and slots, its latest evidence and its
provenance are computed from the evidence of the channel whenever that changes. Its committee,
and whether an inscription on it conflicts, are updated as operations are read.

The *history* of a catalog are the operations of the blocks read, in the order in which they
were read. An operation counts if it is new, that is if no operation before it has the same
evidence id (`IsNew`); how it counts depends on whether it is the latest of its channel so far
(`IsLatest`, `IsLatestConfiguration`). `viewOf` computes from the history what is known of a
channel, and the records of a catalog show it (`Run.settled`): so the records of a catalog are
determined by its history.
-/

namespace LogosInspector.Catalog

open List Table
open ZoneEvidenceReference (evidenceKind channelId l1Slot)
open WorkingCatalog (fromSnapshot)

/-! ### Histories -/

/-- An operation with its block. -/
abbrev Observed := CatalogL1Block × ChannelObservation

/-- The evidence that an operation is, not filed under any segment. -/
def Observed.reference (x : Observed) : ZoneEvidenceReference := primaryEvidence x.1 [] x.2

/-- No operation before has the same evidence id. -/
def IsNew (seen : List Observed) (x : Observed) : Prop :=
  ∀ y ∈ seen, y.reference.evidenceId ≠ x.reference.evidenceId

/-- The operations of the channel that come before are earlier. -/
def IsLatest (seen : List Observed) (x : Observed) : Prop :=
  ∀ y ∈ seen, y.2.channelId = x.2.channelId → evidenceOrder y.reference < evidenceOrder x.reference

/-- A configuration, and the configurations of the channel that come before are earlier. -/
def IsLatestConfiguration (seen : List Observed) (x : Observed) : Prop :=
  x.2.kind.isConfiguration = true ∧ ∀ y ∈ seen, y.2.kind.isConfiguration = true →
    y.2.channelId = x.2.channelId → evidenceOrder y.reference < evidenceOrder x.reference

instance (seen : List Observed) (x : Observed) : Decidable (IsNew seen x) :=
  inferInstanceAs (Decidable (∀ y ∈ seen, _))

instance (seen : List Observed) (x : Observed) : Decidable (IsLatest seen x) :=
  inferInstanceAs (Decidable (∀ y ∈ seen, _))

instance (seen : List Observed) (x : Observed) : Decidable (IsLatestConfiguration seen x) :=
  inferInstanceAs (Decidable (_ ∧ ∀ y ∈ seen, _))

/-- What is known of a channel from its operations alone: its committee, and whether one of
its inscriptions conflicts. -/
structure ChannelView where
  committee : Option SequencerCommitteeSummary
  keyCount : Option ℕ
  withdrawThreshold : Option Text
  conflicts : Bool
  deriving DecidableEq

/-- What is known of a channel that is first seen. -/
def ChannelView.initial : ChannelView := ⟨none, none, none, false⟩

/-- What is known of a channel after one more operation, as `observeCommittee` has it. -/
def ChannelView.observe (view : ChannelView) (slot : ℕ) (observation : ChannelObservation)
    (isLatest isLatestConfiguration : Bool) : ChannelView :=
  let view := { view with conflicts := view.conflicts || observation.conflicting }
  match observation.kind with
  | .configuration keys withdrawThreshold =>
    if isLatestConfiguration then
      { view with
        keyCount := some keys.length
        withdrawThreshold := some withdrawThreshold
        committee := some
          { members := keys
            activeMember := (view.committee.bind
              SequencerCommitteeSummary.activeMember).filter (keys.contains ·)
            observedAtSlot := some slot } }
    else view
  | .inscription _ parentIsRoot signer _ =>
    match view.committee with
    | some committee =>
      if isLatest ∧ signer ∈ committee.members then
        { view with
          committee := some
            { committee with activeMember := some signer, observedAtSlot := some slot } }
      else view
    | none =>
      if parentIsRoot ∧ isLatest then
        { view with
          keyCount := some 1
          committee := some
            { members := [signer]
              activeMember := some signer
              observedAtSlot := some slot } }
      else view
  | .operation => view

/-- What is known of the channel `c` after the operation `x`, the operations `seen` having come
before. -/
def observeView (c : Text) (seen : List Observed) (view : Option ChannelView) (x : Observed) :
    Option ChannelView :=
  if x.2.channelId = c ∧ IsNew seen x then
    some ((view.getD .initial).observe x.1.checkpoint.slot x.2 (decide (IsLatest seen x))
      (decide (IsLatestConfiguration seen x)))
  else view

/-- What is known of the channel `c` after more operations. -/
def viewFrom (c : Text) (seen : List Observed) (view : Option ChannelView) :
    List Observed → Option ChannelView
  | [] => view
  | x :: rest => viewFrom c (seen ++ [x]) (observeView c seen view x) rest

/-- **What is known of the channel `c` after a history.** -/
def viewOf (history : List Observed) (c : Text) : Option ChannelView := viewFrom c [] none history

theorem viewFrom_append (c : Text) (seen : List Observed) (view : Option ChannelView)
    (xs ys : List Observed) : viewFrom c seen view (xs ++ ys) =
      viewFrom c (seen ++ xs) (viewFrom c seen view xs) ys := by
  induction xs generalizing seen view with
  | nil => simp [viewFrom]
  | cons _ _ ih => simp only [cons_append, viewFrom, ih, append_assoc, nil_append]

theorem viewOf_append (xs ys : List Observed) (c : Text) :
    viewOf (xs ++ ys) c = viewFrom c xs (viewOf xs c) ys := by
  rw [viewOf, viewFrom_append, nil_append, viewOf]

theorem viewOf_concat (xs : List Observed) (x : Observed) (c : Text) :
    viewOf (xs ++ [x]) c = observeView c xs (viewOf xs c) x := viewOf_append xs [x] c

/-! ### Records that show a view -/

/-- A channel has evidence of sequencer blocks and of other inscriptions. -/
def BothKinds (evidence : EvidenceTable) (c : Text) : Prop :=
  0 < countEvidence (channelEvidence evidence c) .sequencerBlock ∧
    0 < countEvidence (channelEvidence evidence c) .rawInscription

/-- **A record shows what is known of its channel.** -/
structure Shows (evidence : EvidenceTable) (record : ZoneCatalogRecord) (view : ChannelView) :
    Prop where
  committee : record.sequencerCommittee = view.committee
  keyCount : record.l1Channel.keyCount = view.keyCount
  withdrawThreshold : record.l1Channel.withdrawThreshold = view.withdrawThreshold
  conflicts : view.conflicts = true → record.classification.conflictingEvidence = true
  conflicting : record.classification.conflictingEvidence = true →
    view.conflicts = true ∨ BothKinds evidence record.channelId
  unlabelled : record.observedLabel = none
  noTipHash : record.l1Channel.tipHash = none

/-- **The records of a working copy show a history.** -/
structure Tracks (w : WorkingCatalog) (seen : List Observed) : Prop where
  caches : CachesOk w
  evidence : ∀ e, HasEvidence w.evidence e ↔ ∃ x ∈ seen, e ∈ observationEvidence x.1 [] x.2
  zones : ∀ c, Option.Rel (Shows w.evidence) (w.zones.find? c) (viewOf seen c)

variable {evidence : EvidenceTable} {r : ZoneCatalogRecord} {view : ChannelView} {c : Text}

section Shows

variable {evidence' : EvidenceTable} {r' : ZoneCatalogRecord}

theorem countEvidence_pos_iff {kind : ZoneEvidenceKind} :
    0 < countEvidence (channelEvidence evidence c) kind ↔
      ∃ e ∈ evidence, e.channelId = c ∧ e.evidenceKind = kind := by
  simp only [countEvidence, channelEvidence, length_pos_iff_exists_mem, mem_filter,
    decide_eq_true_eq, mem_records, and_assoc]

/-- Evidence of both kinds stays when evidence is added, or moved to another segment. -/
theorem BothKinds.mono (h : BothKinds evidence c)
    (hsub : ∀ e, HasEvidence evidence e → HasEvidence evidence' e) : BothKinds evidence' c := by
  have hkind : ∀ kind, 0 < countEvidence (channelEvidence evidence c) kind →
      0 < countEvidence (channelEvidence evidence' c) kind := by
    intro _ hpos
    obtain ⟨e, he, hc, hk⟩ := countEvidence_pos_iff.1 hpos
    obtain ⟨x, hx, hu⟩ := hsub e.unfiled ⟨e, he, rfl⟩
    have hxc : x.channelId = e.channelId :=
      congr_of_unfiled (·.channelId) (fun _ => rfl) hu
    have hxk : x.evidenceKind = e.evidenceKind :=
      congr_of_unfiled (·.evidenceKind) (fun _ => rfl) hu
    exact countEvidence_pos_iff.2 ⟨x, hx, hxc.trans hc, hxk.trans hk⟩
  exact ⟨hkind _ h.1, hkind _ h.2⟩

theorem Shows.mono (h : Shows evidence r view)
    (hsub : ∀ e, HasEvidence evidence e → HasEvidence evidence' e) :
    Shows evidence' r view :=
  ⟨h.committee, h.keyCount, h.withdrawThreshold, h.conflicts,
    fun hflag => (h.conflicting hflag).imp_right fun hboth => hboth.mono hsub, h.unlabelled,
    h.noTipHash⟩

/-- A record that differs only in what is computed from the evidence. -/
theorem Shows.congr (h : Shows evidence r view) (hid : r'.channelId = r.channelId)
    (hc : r'.sequencerCommittee = r.sequencerCommittee)
    (hkeys : r'.l1Channel.keyCount = r.l1Channel.keyCount)
    (ht : r'.l1Channel.withdrawThreshold = r.l1Channel.withdrawThreshold)
    (hflag : r.classification.conflictingEvidence = true →
      r'.classification.conflictingEvidence = true)
    (hflag' : r'.classification.conflictingEvidence = true →
      r.classification.conflictingEvidence = true ∨ BothKinds evidence r.channelId)
    (hlabel : r'.observedLabel = r.observedLabel)
    (htip : r'.l1Channel.tipHash = r.l1Channel.tipHash) :
    Shows evidence r' view := by
  refine ⟨hc.trans h.committee, hkeys.trans h.keyCount,
    ht.trans h.withdrawThreshold, fun hv => hflag (h.conflicts hv), fun hr => ?_,
    hlabel.trans h.unlabelled, htip.trans h.noTipHash⟩
  rw [hid]
  rcases hflag' hr with hold | hboth
  · exact h.conflicting hold
  · exact .inr hboth

end Shows

/-! ### Reading operations -/

variable {w w' : WorkingCatalog} {seen : List Observed} {segmentId : Text} {targetSlot : ℕ}
  {context : CatalogEngineContext}

section Observation

variable {x : Observed}

/-- The evidence of operations, by what they are. -/
theorem Tracks.primary_iff (h : Tracks w seen) {e : ZoneEvidenceReference}
    (hk : e.evidenceKind ≠ .channelCreated) :
    HasEvidence w.evidence e ↔ ∃ y ∈ seen, y.reference = e := by
  rw [h.evidence]
  refine exists_congr fun _ => and_congr_right fun _ => ?_
  rw [mem_observationEvidence]
  constructor
  · rintro (heq | ⟨-, heq⟩)
    · exact heq.symm
    · exact absurd (congrArg evidenceKind heq) hk
  · intro heq
    exact .inl heq.symm

theorem isConfiguration_of_kind {o : ChannelObservation} {keys : List Text} {threshold : Text}
    (h : o.kind = .configuration keys threshold) : o.kind.isConfiguration = true := by
  rw [h]
  rfl

/-- **A history without contradictions**: operations with one evidence id are the same
evidence. -/
structure Consistent (history : List Observed) : Prop where
  kinds : ∀ y ∈ history, y.2.WellKinded
  same : ∀ y ∈ history, ∀ z ∈ history, y.reference.evidenceId = z.reference.evidenceId →
    y.reference = z.reference

variable {xs : List Observed}

theorem Consistent.mono {ys : List Observed} (h : Consistent ys) (hsub : ∀ x ∈ xs, x ∈ ys) :
    Consistent xs :=
  ⟨fun y hy => h.kinds y (hsub y hy), fun y hy z hz => h.same y (hsub y hy) z (hsub z hz)⟩

/-- Operations that are the same evidence are both configurations, or neither is. -/
theorem Consistent.isConfiguration_iff {history : List Observed} (h : Consistent history)
    {y z : Observed} (hy : y ∈ history) (hz : z ∈ history) (hs : y.reference = z.reference) :
    y.2.kind.isConfiguration = true ↔ z.2.kind.isConfiguration = true := by
  rw [← (h.kinds y hy).configuration_iff, ← (h.kinds z hz).configuration_iff]
  have hk : (observedEvidence y.2.kind).1 = (observedEvidence z.2.kind).1 :=
    congrArg evidenceKind hs
  rw [hk]

section

variable (h : Tracks w seen)

include h

/-- What the engine has read is consistent: it refuses contradicting evidence. -/
theorem Tracks.consistent (hkind : ∀ y ∈ seen, y.2.WellKinded) :
    Consistent seen := by
  refine ⟨hkind, fun y hy z hz hid => ?_⟩
  obtain ⟨e, he, hey⟩ := (h.primary_iff (hkind y hy).ne_channelCreated).2 ⟨y, hy, rfl⟩
  obtain ⟨e', he', hez⟩ := (h.primary_iff (hkind z hz).ne_channelCreated).2 ⟨z, hz, rfl⟩
  have hee : e.evidenceId = e'.evidenceId := by
    rw [← hey, ← hez] at hid
    exact hid
  rw [← hey, ← hez, eq_of_key_eq he he' hee]

/-- An operation is new if no evidence with its id is there. -/
theorem Tracks.isNew (hkind : ∀ y ∈ seen, y.2.WellKinded)
    (hfresh : ∀ r ∈ w.evidence, r.evidenceId ≠ x.reference.evidenceId) : IsNew seen x := by
  intro y hy
  obtain ⟨r, hr, hu⟩ := (h.primary_iff (hkind y hy).ne_channelCreated).2 ⟨y, hy, rfl⟩
  have hid : r.evidenceId = y.reference.evidenceId := by
    rw [← hu]
    rfl
  exact hid ▸ hfresh r hr

/-- An operation comes last in the evidence if it is the latest of the history. -/
theorem Tracks.comesLast_iff {p : ZoneEvidenceReference → Prop}
    (hp : ∀ r, p r → r.evidenceKind ≠ .channelCreated)
    (hu : ∀ r, p r.unfiled ↔ p r) :
    ComesLast w.evidence p (primaryEvidence x.1 segmentId x.2) ↔
      ∀ y ∈ seen, p y.reference → y.2.channelId = x.2.channelId →
        evidenceOrder y.reference < evidenceOrder x.reference := by
  constructor
  · intro hlast y hy hpy hc
    obtain ⟨r, hr, hry⟩ := (h.primary_iff (hp _ hpy)).2 ⟨y, hy, rfl⟩
    rw [← hry] at hpy ⊢
    refine hlast r hr ((hu r).1 hpy) (Eq.trans ?_ hc)
    exact congrArg channelId hry
  · intro hall r hr hpr hc
    obtain ⟨y, hy, hyr⟩ := (h.primary_iff (hp _ ((hu r).2 hpr))).1 ⟨r, hr, rfl⟩
    have hlt := hall y hy (hyr ▸ (hu r).2 hpr)
      ((congrArg channelId hyr).trans hc)
    rw [hyr] at hlt
    exact hlt

omit h in
theorem hasEvidence_observation {e : ZoneEvidenceReference}
    (hm : ∀ r, r ∈ w'.evidence ↔ r ∈ w.evidence ∨ r ∈ observationEvidence x.1 segmentId x.2) :
    HasEvidence w'.evidence e ↔ HasEvidence w.evidence e ∨ e ∈ observationEvidence x.1 [] x.2 := by
  have hmap : (observationEvidence x.1 segmentId x.2).map ZoneEvidenceReference.unfiled =
      observationEvidence x.1 [] x.2 := by
    unfold observationEvidence
    split_ifs <;> rfl
  simp only [HasEvidence, hm, or_and_right, exists_or, ← hmap, mem_map]

omit h in
/-- The record of a channel after an operation. -/
theorem Shows.observe (h : Shows evidence r view) (slot : ℕ) (o : ChannelObservation)
    (isLatest isLatestConfiguration : Bool) :
    Shows evidence (observeCommittee (observeOperation r slot targetSlot o.conflicting context)
      slot o.kind isLatest isLatestConfiguration)
      (view.observe slot o isLatest isLatestConfiguration) := by
  obtain ⟨hc, hkeys, ht, hcon, hconflicting, hl, htip⟩ := h
  have hflag : (view.conflicts || o.conflicting) = true →
      (r.classification.conflictingEvidence || o.conflicting) = true := by
    simp only [Bool.or_eq_true]
    exact Or.imp_left hcon
  have hflag' : (r.classification.conflictingEvidence || o.conflicting) = true →
      (view.conflicts || o.conflicting) = true ∨ BothKinds evidence r.channelId := by
    simp only [Bool.or_eq_true]
    rintro (hold | hnew)
    · exact (hconflicting hold).imp_left .inl
    · exact .inl (.inr hnew)
  unfold observeCommittee ChannelView.observe
  cases o.kind with
  | configuration =>
    cases isLatestConfiguration with
    | false => exact ⟨hc, hkeys, ht, hflag, hflag', hl, htip⟩
    | true =>
      refine ⟨?_, rfl, rfl, hflag, hflag', hl, htip⟩
      simp only [observeOperation, if_true, hc]
  | inscription =>
    simp only [observeOperation, hc]
    cases view.committee with simp only
    | some _ =>
      split_ifs <;> exact ⟨rfl, hkeys, ht, hflag, hflag', hl, htip⟩
    | none =>
      split_ifs
      · exact ⟨rfl, rfl, ht, hflag, hflag', hl, htip⟩
      · exact ⟨rfl, hkeys, ht, hflag, hflag', hl, htip⟩
  | operation => exact ⟨hc, hkeys, ht, hflag, hflag', hl, htip⟩

omit h in
theorem observedRecord_channelId (isLatest isLatestConfiguration : Bool) :
    (observedRecord x.1 segmentId targetSlot context w x.2 isLatest
      isLatestConfiguration).channelId = x.2.channelId := by
  have hkeep : ∀ (r : ZoneCatalogRecord) (slot : ℕ) (kind : ChannelObservationKind),
      (observeCommittee r slot kind isLatest isLatestConfiguration).channelId = r.channelId := by
    intro r _ kind
    unfold observeCommittee
    cases kind with
    | configuration => split_ifs <;> rfl
    | inscription =>
      cases r.sequencerCommittee with
      | some _ | none =>
        simp only
        split_ifs <;> rfl
    | operation => rfl
  rw [observedRecord, hkeep]
  cases hf : w.zones.find? x.2.channelId with
  | none => rfl
  | some _ => exact (find?_eq_some.1 hf).2

/-- The record that an operation is added to shows what was known before. -/
theorem Tracks.shows_base (o : ChannelObservation) (block : CatalogL1Block)
    (segmentId : Text) (targetSlot : ℕ) (latestEvidenceId : Text)
    (context : CatalogEngineContext) : Shows w.evidence ((w.zones.find? o.channelId).getD
        (newZoneRecord o block segmentId targetSlot latestEvidenceId context))
      ((viewOf seen o.channelId).getD .initial) := by
  have hrel := h.zones o.channelId
  revert hrel
  cases w.zones.find? o.channelId with
  | none =>
    cases viewOf seen o.channelId with
    | none => exact fun _ => ⟨rfl, rfl, rfl, by simp [ChannelView.initial], by simp [newZoneRecord],
      rfl, rfl⟩
    | some _ => rintro ⟨⟩
  | some _ =>
    cases viewOf seen o.channelId with
    | none => rintro ⟨⟩
    | some _ =>
      rintro (hshow | _)
      exact hshow

/-- **One operation**: the records show the history with the operation added. -/
theorem Tracks.observe (hkind : ∀ y ∈ seen, y.2.WellKinded) (hk : x.2.WellKinded)
    (hread : ingestObservation x.1 segmentId targetSlot context w x.2 = .ok w') :
    Tracks w' (seen ++ [x]) := by
  obtain ⟨hcaches, hm, hzone⟩ := ingestObservation_eq_ok h.caches hk.ne_channelCreated hread
  have hevidence := fun e => hasEvidence_observation (e := e) hm
  have hmono : ∀ e, HasEvidence w.evidence e → HasEvidence w'.evidence e := fun e he =>
    (hevidence e).2 (.inl he)
  refine ⟨hcaches, fun _ => ?_, fun c => ?_⟩
  · rw [hevidence, h.evidence]
    simp only [mem_append, mem_singleton, or_and_right, exists_or, exists_eq_left]
  rw [viewOf_concat, observeView]
  have hold : Option.Rel (Shows w'.evidence) (w.zones.find? c) (viewOf seen c) := by
    have hrel := h.zones c
    revert hrel
    cases w.zones.find? c <;> cases viewOf seen c <;> intro hrel <;> cases hrel
    · exact .none
    · next hshow => exact .some (hshow.mono hmono)
  rcases hzone with ⟨hp, hs⟩ | ⟨hfresh, isLatest, isLatestConfiguration, hlate, hcon, hi⟩
  · -- the operation is there already
    have hnot : ¬ IsNew seen x := by
      intro hnew
      have hhas : HasEvidence w.evidence x.reference := ⟨_, hp, rfl⟩
      obtain ⟨y, hy, heq⟩ := (h.primary_iff hk.ne_channelCreated).1 hhas
      exact hnew y hy (congrArg ZoneEvidenceReference.evidenceId heq)
    rw [if_neg fun hand => hnot hand.2, hs]
    exact hold
  · have hnew : IsNew seen x := h.isNew hkind hfresh
    rw [hi, find?_insert, observedRecord_channelId]
    by_cases hc : x.2.channelId = c
    · rw [if_pos hc.symm, if_pos ⟨hc, hnew⟩]
      subst hc
      have h₁ : isLatest = decide (IsLatest seen x) := by
        rw [Bool.eq_iff_iff, hlate, decide_eq_true_eq, h.comesLast_iff (fun _ hr => hr)
          (fun _ => Iff.rfl), IsLatest]
        exact forall₂_congr fun y hy => forall_prop_of_true (hkind y hy).ne_channelCreated
      have h₂ : isLatestConfiguration = decide (IsLatestConfiguration seen x) := by
        rw [Bool.eq_iff_iff, hcon, decide_eq_true_eq, h.comesLast_iff
          (fun _ hr => by simp [hr]) (fun _ => Iff.rfl), IsLatestConfiguration]
        refine and_congr_right fun _ => forall₂_congr fun y hy => ?_
        rw [← (hkind y hy).configuration_iff]
        rfl
      rw [← h₁, ← h₂]
      refine .some ?_
      have hbase := h.shows_base x.2 x.1 segmentId targetSlot
        (primaryEvidence x.1 segmentId x.2).evidenceId context
      exact (hbase.observe x.1.checkpoint.slot x.2 isLatest isLatestConfiguration).mono hmono
    · rw [if_neg (Ne.symm hc), if_neg fun hand => hc hand.1]
      exact hold

/-- **More operations**: the records show the history with them added. -/
theorem Tracks.ingest (hkind : ∀ y ∈ seen ++ xs, y.2.WellKinded)
    (hread : ingestObservations segmentId targetSlot context w xs = .ok w') :
    Tracks w' (seen ++ xs) := by
  induction xs generalizing w seen with
  | nil =>
    cases hread
    rwa [append_nil]
  | cons x xs ih =>
    rw [ingestObservations, foldlM_cons, bind_eq_ok] at hread
    obtain ⟨_, hv, hread⟩ := hread
    have hx : x.2.WellKinded := hkind x (by simp)
    have hstep := h.observe (fun y hy => hkind y (mem_append_left _ hy)) hx hv
    have ha : seen ++ x :: xs = seen ++ [x] ++ xs := by simp
    rw [ha] at hkind ⊢
    exact ih hstep hkind hread

end

/-- Operations leave the other channels alone. -/
theorem ingestObservations_other (hw : CachesOk w) (hkind : ∀ x ∈ xs, x.2.WellKinded)
    (hc : ∀ x ∈ xs, x.2.channelId ≠ c)
    (hread : ingestObservations segmentId targetSlot context w xs = .ok w') :
    w'.zones.find? c = w.zones.find? c ∧
      ∀ e, e.channelId = c → (e ∈ w'.evidence ↔ e ∈ w.evidence) := by
  have hinv := foldlM_induction (P := fun t => CachesOk t ∧ t.zones.find? c = w.zones.find? c ∧
    ∀ e, e.channelId = c → (e ∈ t.evidence ↔ e ∈ w.evidence)) hread ⟨hw, rfl, fun _ _ => Iff.rfl⟩
    fun t x t' hx ⟨ht, hzone, hevidence⟩ hstep => by
      obtain ⟨ht', hm, hzones⟩ :=
        ingestObservation_eq_ok ht (hkind x hx).ne_channelCreated hstep
      refine ⟨ht', ?_, fun e he => ?_⟩
      · rcases hzones with ⟨-, hs⟩ | ⟨-, _, _, -, -, hi⟩
        · rw [hs, hzone]
        · rw [hi, find?_insert, observedRecord_channelId, if_neg (hc x hx).symm, hzone]
      · rw [hm, or_iff_left fun hnew => ?_, hevidence e he]
        rcases mem_observationEvidence.1 hnew with rfl | ⟨-, rfl⟩ <;> exact hc x hx he
  exact hinv.2

end Observation

/-! ### Computing records anew -/

theorem maxByKey_eq_some {α β : Type} [LinearOrder β] {f : α → β} {l : List α} {m : α}
    (h : maxByKey f l = some m) : m ∈ l ∧ ∀ x ∈ l, f x ≤ f m := by
  cases l with
  | nil => cases h
  | cons a l =>
    have hfold : ∀ (l : List α) (best m : α),
        l.foldl (fun best x => if f best ≤ f x then x else best) best = m →
        (m = best ∨ m ∈ l) ∧ f best ≤ f m ∧ ∀ x ∈ l, f x ≤ f m := by
      intro l
      induction l with
      | nil =>
        rintro best _ rfl
        exact ⟨.inl rfl, le_rfl, by simp⟩
      | cons x _ ih =>
        intro _ m hm
        rw [foldl_cons] at hm
        obtain ⟨hmem, hle, hall⟩ := ih _ m hm
        rw [forall_mem_cons]
        split_ifs at hmem hle with hx
        · exact ⟨.inr (mem_cons.2 hmem), hx.trans hle, hle, hall⟩
        · exact ⟨hmem.imp_right (mem_cons_of_mem x), hle, (not_le.1 hx).le.trans hle, hall⟩
    obtain ⟨hmem, hle, hall⟩ := hfold l a m (Option.some_inj.1 h)
    exact ⟨mem_cons.2 hmem, forall_mem_cons.2 ⟨hle, hall⟩⟩

theorem maxByKey_eq_none {α β : Type} [LinearOrder β] {f : α → β} {l : List α} :
    maxByKey f l = none ↔ l = [] := by
  cases l <;> simp [maxByKey]

/-- The evidence of the operations of a channel. -/
def primaryOf (references : List ZoneEvidenceReference) : List ZoneEvidenceReference :=
  references.filter fun reference => reference.evidenceKind ≠ .channelCreated

/-- Evidence that comes last. -/
structure IsLast (references : List ZoneEvidenceReference) (latest : ZoneEvidenceReference) :
    Prop where
  mem : latest ∈ references
  last : ∀ r ∈ references, evidenceOrder r ≤ evidenceOrder latest

/-- The configurations among the evidence of a channel. -/
def configurationsOf (references : List ZoneEvidenceReference) : List ZoneEvidenceReference :=
  references.filter fun reference => reference.evidenceKind = .channelConfiguration

/-- **A record sums up the evidence of its channel.** -/
structure SumsUp (references : List ZoneEvidenceReference) (record : ZoneCatalogRecord) : Prop where
  operationCount : record.l1Channel.operationCount = (primaryOf references).length
  channelOperations : record.classification.channelOperations = (primaryOf references).length
  recognizedL2Blocks :
    record.classification.recognizedL2Blocks = countEvidence references .sequencerBlock
  rawInscriptions : record.classification.rawInscriptions = countEvidence references .rawInscription
  evidenceCount : record.evidenceCount = references.length
  firstSeen : ((primaryOf references).map (·.l1Slot)).min? = some record.firstSeenSlot
  lastSeen : ((primaryOf references).map (·.l1Slot)).max? = some record.lastSeenSlot
  tip : record.l1Channel.tipSlot = some record.lastSeenSlot
  latest : ∃ latest, IsLast references latest ∧ record.latestEvidenceId = latest.evidenceId ∧
    record.snapshotProvenance.coverageSegmentId = latest.coverageSegmentId ∧
    (record.snapshotProvenance.origin = .fullConfiguration ↔
      ∃ configuration, IsLast (configurationsOf references) configuration ∧
        configuration.coverageSegmentId = latest.coverageSegmentId)
  replayed : record.snapshotProvenance.origin ≠ .pointSnapshot
  observed : record.snapshotProvenance.observedSlot = record.lastSeenSlot
  conflicting : 0 < countEvidence references .sequencerBlock →
    0 < countEvidence references .rawInscription →
    record.classification.conflictingEvidence = true

variable {references : List ZoneEvidenceReference}

theorem IsLast.unique {a b : ZoneEvidenceReference}
    (ha : IsLast references a) (hb : IsLast references b) : a.evidenceId = b.evidenceId :=
  evidenceOrder_inj (le_antisymm (hb.last a ha.mem) (ha.last b hb.mem))

theorem isLast_of_maxByKey
    {latest : ZoneEvidenceReference} (h : maxByKey evidenceOrder references = some latest) :
    IsLast references latest :=
  ⟨(maxByKey_eq_some h).1, (maxByKey_eq_some h).2⟩

section Recompute

variable {e : ZoneEvidenceReference}

theorem mem_channelEvidence : e ∈ channelEvidence evidence c ↔ e ∈ evidence ∧ e.channelId = c := by
  rw [channelEvidence, mem_filter, decide_eq_true_eq, mem_records]

/-- The evidence of a channel, as a table. -/
theorem channelEvidence_congr {evidence' : EvidenceTable}
    (h : ∀ e, e.channelId = c → (e ∈ evidence' ↔ e ∈ evidence)) :
    channelEvidence evidence' c = channelEvidence evidence c := by
  have heq : (⟨channelEvidence evidence' c, evidence'.sorted.filter _⟩ : EvidenceTable) =
      ⟨channelEvidence evidence c, evidence.sorted.filter _⟩ := by
    refine ext_mem fun e => ?_
    change e ∈ channelEvidence evidence' c ↔ e ∈ channelEvidence evidence c
    rw [mem_channelEvidence, mem_channelEvidence]
    exact and_congr_left (h e)
  exact congrArg Table.records heq

/-- Beside every piece of evidence there is that of an operation. -/
theorem Tracks.exists_primary (h : Tracks w seen) (hkind : ∀ y ∈ seen, y.2.WellKinded)
    (he : e ∈ w.evidence) : ∃ r ∈ w.evidence,
      r.channelId = e.channelId ∧ r.l1Slot = e.l1Slot ∧ r.evidenceKind ≠ .channelCreated := by
  obtain ⟨x, hx, hex⟩ := (h.evidence e.unfiled).1 ⟨e, he, rfl⟩
  obtain ⟨r, hr, hrx⟩ := (h.evidence x.reference).2 ⟨x, hx, mem_cons_self⟩
  have hs : x.2.channelId = e.channelId ∧ x.1.checkpoint.slot = e.l1Slot := by
    rcases mem_observationEvidence.1 hex with heq | ⟨-, heq⟩
    all_goals exact ⟨(congrArg channelId heq).symm, (congrArg l1Slot heq).symm⟩
  refine ⟨r, hr, (congrArg channelId hrx).trans hs.1,
    (congrArg l1Slot hrx).trans hs.2, fun heq => ?_⟩
  have hk := congrArg evidenceKind hrx
  exact (hkind x hx).ne_channelCreated (hk.symm.trans heq)

theorem mem_primaryOf :
    e ∈ primaryOf references ↔ e ∈ references ∧ e.evidenceKind ≠ .channelCreated := by
  rw [primaryOf, mem_filter, decide_eq_true_eq]

/-- A channel with evidence has evidence of an operation. -/
theorem Tracks.primaryOf_ne_nil (h : Tracks w seen) (hkind : ∀ y ∈ seen, y.2.WellKinded)
    (hne : channelEvidence w.evidence c ≠ []) : primaryOf (channelEvidence w.evidence c) ≠ [] := by
  obtain ⟨_, he⟩ := exists_mem_of_ne_nil _ hne
  obtain ⟨hm, hc⟩ := mem_channelEvidence.1 he
  obtain ⟨_, hr, hrc, -, hrk⟩ := h.exists_primary hkind hm
  exact ne_nil_of_mem (mem_primaryOf.2 ⟨mem_channelEvidence.2 ⟨hr, hrc.trans hc⟩, hrk⟩)

/-- A record that was computed anew sums up the evidence. -/
theorem Recomputed.sumsUp {old : ZoneCatalogRecord}
    (hne : primaryOf (channelEvidence evidence c) ≠ [])
    (h : Recomputed evidence targetSlot context c (some old) (some r)) :
    SumsUp (channelEvidence evidence c) r := by
  obtain ⟨_, latest, -, hlate, hr⟩ := h
  obtain rfl := Option.some_inj.1 hr
  have hmap : (primaryOf (channelEvidence evidence c)).map (·.l1Slot) ≠ [] := by
    rwa [ne_eq, map_eq_nil_iff]
  refine ⟨rfl, rfl, rfl, rfl, rfl, ?_, ?_, rfl, ⟨latest, isLast_of_maxByKey hlate, rfl, rfl, ?_⟩,
    ?_, rfl, fun h₁ h₂ => ?_⟩
  · obtain ⟨slot, hslot⟩ := Option.ne_none_iff_exists'.1 (mt min?_eq_none_iff.1 hmap)
    change _ = some (((primaryOf (channelEvidence evidence c)).map (·.l1Slot)).min?.getD _)
    rw [hslot]
    rfl
  · obtain ⟨_, hslot⟩ := Option.ne_none_iff_exists'.1 (mt max?_eq_none_iff.1 hmap)
    change _ = some (((primaryOf (channelEvidence evidence c)).map (·.l1Slot)).max?.getD _)
    rw [hslot]
    rfl
  · have horigin : ∀ o, o = maxByKey evidenceOrder (configurationsOf (channelEvidence evidence c)) →
        ((if o.any (·.coverageSegmentId = latest.coverageSegmentId) then
            CatalogSnapshotOrigin.fullConfiguration else .replayDerived) = .fullConfiguration ↔
          ∃ conf, IsLast (configurationsOf (channelEvidence evidence c)) conf ∧
            conf.coverageSegmentId = latest.coverageSegmentId) := by
      rintro o ho
      have hmem : ∀ x, IsLast (configurationsOf (channelEvidence evidence c)) x → x ∈ evidence :=
        fun x hx => (mem_channelEvidence.1 (mem_of_mem_filter hx.mem)).1
      cases o with
      | none =>
        simp only [Option.any_none, Bool.false_eq_true, if_false, reduceCtorEq, false_iff,
          not_exists, not_and]
        intro x hx
        have hmem := hx.mem
        rw [maxByKey_eq_none.1 ho.symm] at hmem
        cases hmem
      | some m =>
        have hm := isLast_of_maxByKey ho.symm
        simp only [Option.any_some, decide_eq_true_eq, ite_eq_left_iff, reduceCtorEq, imp_false,
          not_not]
        constructor
        · exact fun hs => ⟨m, hm, hs⟩
        · rintro ⟨x, hx, _⟩
          rwa [← eq_of_key_eq (hmem x hx) (hmem m hm) (hx.unique hm)]
    exact horigin _ rfl
  · simp only [deriveZoneRecord]
    split_ifs <;> simp
  · simp [deriveZoneRecord, h₁, h₂]

end Recompute

/-- **The records of a working copy show a history and sum up the evidence.** -/
structure Settled (w : WorkingCatalog) (seen : List Observed) : Prop extends Tracks w seen where
  sums : ∀ z ∈ w.zones, SumsUp (channelEvidence w.evidence z.channelId) z

section Settle

variable {v : WorkingCatalog} {channels : IdSet}

variable {old new : Text}

/-- A record after it was computed anew shows what it has shown before. -/
theorem Shows.derive (h : Shows evidence r view) (latest : ZoneEvidenceReference) :
    Shows evidence (deriveZoneRecord r (channelEvidence evidence r.channelId) latest
      targetSlot context) view := by
  refine h.congr rfl rfl rfl rfl (fun hflag => ?_) (fun hflag => ?_) rfl rfl
  · simp [deriveZoneRecord, hflag]
  · simp only [deriveZoneRecord, Bool.or_eq_true, Bool.and_eq_true, decide_eq_true_eq] at hflag
    exact hflag

theorem optionRel_some {α β : Type} {r : α → β → Prop} {a : α} {o : Option β}
    (h : Option.Rel r (some a) o) : ∃ b, o = some b ∧ r a b := by
  cases h with
  | some hab => exact ⟨_, rfl, hab⟩

/-- **Computing records anew** settles those of the channels. -/
theorem Tracks.settle (h : Tracks w seen) (hkind : ∀ y ∈ seen, y.2.WellKinded)
    (ho : ∀ z ∈ w.zones, z.channelId ∉ channels → SumsUp (channelEvidence w.evidence z.channelId) z)
    (hrec : recomputeZoneRecords w channels targetSlot context = .ok w') : Settled w' seen := by
  obtain ⟨hs, hin, hout⟩ := recomputeZoneRecords_eq_ok hrec
  have he : w'.evidence = w.evidence := by rw [hs]
  have hc : CachesOk w' := by
    rw [hs]
    exact ⟨h.caches.primary, h.caches.configuration⟩
  refine ⟨⟨hc, fun _ => by rw [he, h.evidence], fun x => ?_⟩, fun z hz => ?_⟩
  · rw [he]
    by_cases hx : x ∈ channels
    · obtain ⟨old, latest, hold, -, hnew⟩ := hin x hx
      have hrel := h.zones x
      rw [hold] at hrel
      obtain ⟨_, hview, hshow⟩ := optionRel_some hrel
      have hkey : old.channelId = x := (find?_eq_some.1 hold).2
      rw [hnew, hview, ← hkey]
      exact .some (hshow.derive latest)
    · rw [hout x hx]
      exact h.zones x
  · have hf := find?_of_mem hz
    rw [he]
    by_cases hx : z.channelId ∈ channels
    · have hrecomputed := hin _ hx
      rw [hf] at hrecomputed
      obtain ⟨_, _, hold, hlate, -⟩ := id hrecomputed
      rw [hold] at hrecomputed
      have hne : channelEvidence w.evidence z.channelId ≠ [] := fun hnil => by
        rw [hnil] at hlate
        cases hlate
      exact hrecomputed.sumsUp (h.primaryOf_ne_nil hkind hne)
    · rw [hout _ hx] at hf
      exact ho z (find?_eq_some.1 hf).1 hx

/-- **Reading blocks** adds their operations to the history. -/
theorem Settled.ingestBlocks {ext : Externals} {blocks : List CatalogL1Block} (h : Settled v seen)
    (hkind : ∀ y ∈ seen, y.2.WellKinded) (hl : SameLedger w v)
    (hread : Catalog.ingestBlocks ext w blocks segmentId context = .ok w') :
    Settled w' (seen ++ observations ext blocks) := by
  obtain ⟨-, _, _, _, -, hobservations, hc, hrec⟩ := ingestBlocks_eq_ok hread
  have hkind' : ∀ y ∈ observations ext blocks, y.2.WellKinded := fun _ hy =>
    wellKinded_of_mem (mem_observations.1 hy).2
  have hall := forall_mem_append.2 ⟨hkind, hkind'⟩
  have hw : Tracks w seen := by
    refine ⟨⟨?_, ?_⟩, ?_, ?_⟩
    · rw [hl.primary, hl.evidence]
      exact h.caches.primary
    · rw [hl.configuration, hl.evidence]
      exact h.caches.configuration
    · rw [hl.evidence]
      exact h.evidence
    · rw [hl.zones, hl.evidence]
      exact h.zones
  refine (hw.ingest hall hobservations).settle hall (fun z hz hnot => ?_) hrec
  -- no operation of this channel was read
  have ho : ∀ x ∈ observations ext blocks, x.2.channelId ≠ z.channelId := fun x hx heq =>
    hnot ((hc _).2 ⟨x, hx, heq⟩)
  obtain ⟨hzone, he⟩ := ingestObservations_other hw.caches hkind' ho hobservations
  rw [channelEvidence_congr he, hl.evidence]
  have hf := find?_of_mem hz
  rw [hzone, hl.zones] at hf
  exact h.sums z (find?_eq_some.1 hf).1

theorem Shows.moveZone (h : Shows evidence r view) :
    Shows evidence (Catalog.moveZone old new context r) view := by
  unfold Catalog.moveZone
  split_ifs
  · exact ⟨h.committee, h.keyCount, h.withdrawThreshold, h.conflicts, h.conflicting, h.unlabelled,
      h.noTipHash⟩
  · exact h

/-- **Moving the evidence of a segment** leaves the history as it is. -/
theorem Settled.reassignSegment (h : Settled w seen) (hkind : ∀ y ∈ seen, y.2.WellKinded)
    (hmove : Catalog.reassignSegment w old new context = .ok v) : Settled v seen := by
  obtain ⟨_, _, -, hchannels, hrec⟩ := reassignSegment_eq_ok hmove
  refine Tracks.settle ⟨?_, fun e => ?_, fun x => ?_⟩ hkind (fun z hz hnot => ?_) hrec
  · exact ⟨h.caches.primary.move fun r => by rw [moveEvidence_evidenceKind],
      h.caches.configuration.move fun r => by rw [moveEvidence_evidenceKind]⟩
  · rw [hasEvidence_move, h.evidence]
  · have hrel := h.zones x
    rw [find?_modifyAll]
    revert hrel
    cases w.zones.find? x <;> cases viewOf seen x <;> intro hrel <;> cases hrel
    · exact .none
    · next hshow => exact .some (hshow.moveZone.mono fun e => hasEvidence_move.2)
  · -- a channel without evidence in the old segment is not touched
    change z ∈ w.zones.modifyAll (moveZone old new context) (moveZone_channelId old new context)
      at hz
    rw [mem_modifyAll] at hz
    obtain ⟨z, hold, rfl⟩ := hz
    rw [moveZone_channelId] at hnot ⊢
    have hfile : ∀ e ∈ w.evidence, e.channelId = z.channelId → e.coverageSegmentId ≠ old :=
      fun e he hc heq => hnot ((hchannels _).2 ⟨e, he, heq, hc⟩)
    have hsums := h.sums z hold
    obtain ⟨latest, hlate, -, hseg, -⟩ := hsums.latest
    obtain ⟨hm, hc⟩ := mem_channelEvidence.1 hlate.mem
    have hzone : moveZone old new context z = z := by
      unfold moveZone
      rw [if_neg]
      rw [hseg]
      exact hfile latest hm hc
    have hkeep : channelEvidence (w.evidence.modifyAll (moveEvidence old new)
        (moveEvidence_evidenceId old new)) z.channelId =
        channelEvidence w.evidence z.channelId := by
      refine channelEvidence_congr fun e he => ?_
      rw [mem_modifyAll]
      constructor
      · rintro ⟨r, hr, rfl⟩
        rw [moveEvidence_channelId] at he
        rwa [moveEvidence, if_neg (hfile r hr he)]
      · intro hr
        exact ⟨e, hr, by rw [moveEvidence, if_neg (hfile e hr he)]⟩
    rw [hzone, hkeep]
    exact hsums

end Settle

/-! ### The history of a run -/

section Runs

variable {ext : Externals} {served : Set CatalogL1Block}
  {confirms : CatalogSnapshot → CatalogRepairConfirmation → Prop} {metadata : CatalogMetadata}
  {log blocks : List CatalogL1Block} {s s' : CatalogSnapshot}

theorem observations_append (xs ys : List CatalogL1Block) :
    observations ext (xs ++ ys) = observations ext xs ++ observations ext ys :=
  flatMap_append

theorem wellKinded_observations (x : Observed) (hx : x ∈ observations ext log) :
    x.2.WellKinded := wellKinded_of_mem (mem_observations.1 hx).2

/-- A catalog with the zones and the evidence of a working copy. -/
theorem Settled.toSnapshot (h : Settled w seen) (hzone : s'.zones = w.zones)
    (he : s'.evidence = w.evidence) : Settled (fromSnapshot s') seen := by
  refine ⟨⟨cachesOk_fromSnapshot s', ?_, ?_⟩, ?_⟩
  · change ∀ e, HasEvidence s'.evidence e ↔ _
    rw [he]
    exact h.evidence
  · change ∀ c, Option.Rel (Shows s'.evidence) (s'.zones.find? c) _
    rw [he, hzone]
    exact h.zones
  · change ∀ z ∈ s'.zones, SumsUp (channelEvidence s'.evidence z.channelId) z
    rw [he, hzone]
    exact h.sums

theorem Settled.reads {v : WorkingCatalog} (h : Settled v seen)
    (hkind : ∀ y ∈ seen, y.2.WellKinded) (hreads : Reads ext v segmentId blocks context s') :
    Settled (fromSnapshot s') (seen ++ observations ext blocks) := by
  obtain ⟨_, _, hl, hread, hzone, he⟩ := hreads
  exact (h.ingestBlocks hkind hl hread).toSnapshot hzone he

variable {target : CatalogBlockReference}

theorem Shows.retargetZone (h : Shows evidence r view) :
    Shows evidence (Catalog.retargetZone target context r) view := by
  unfold Catalog.retargetZone
  split_ifs
  · exact h
  · exact ⟨h.committee, h.keyCount, h.withdrawThreshold, h.conflicts, h.conflicting, h.unlabelled,
      h.noTipHash⟩

theorem SumsUp.retargetZone (h : SumsUp references r) :
    SumsUp references (Catalog.retargetZone target context r) := by
  unfold Catalog.retargetZone
  split_ifs
  · exact h
  · exact ⟨h.operationCount, h.channelOperations, h.recognizedL2Blocks, h.rawInscriptions,
      h.evidenceCount, h.firstSeen, h.lastSeen, h.tip, h.latest, h.replayed, h.observed,
      h.conflicting⟩

/-- **One step** adds the operations of the blocks read to the history. -/
theorem Effect.settled (h : Settled (fromSnapshot s) seen)
    (hkind : ∀ y ∈ seen, y.2.WellKinded) (he : Effect ext confirms s blocks context s') :
    Settled (fromSnapshot s') (seen ++ observations ext blocks) := by
  cases he with
  | retarget target he =>
    rw [he.empty, observations, flatMap_nil, append_nil]
    refine Settled.toSnapshot (w := { fromSnapshot s with
      zones := s.zones.modifyAll (retargetZone target context)
        (retargetZone_channelId target context) })
      ⟨⟨⟨h.caches.primary, h.caches.configuration⟩, h.evidence, fun c => ?_⟩, fun z hz => ?_⟩
      he.zones he.evidence
    · have hrel := h.zones c
      rw [find?_modifyAll]
      change Option.Rel (Shows s.evidence) (s.zones.find? c) (viewOf seen c) at hrel
      revert hrel
      cases s.zones.find? c <;> cases viewOf seen c <;> intro hrel <;> cases hrel
      · exact .none
      · next hshow => exact .some hshow.retargetZone
    · change z ∈ s.zones.modifyAll (retargetZone target context)
        (retargetZone_channelId target context) at hz
      rw [mem_modifyAll] at hz
      obtain ⟨z, hold, rfl⟩ := hz
      rw [retargetZone_channelId]
      exact (h.sums z hold).retargetZone
  | extend _ _ _ _ _ _ he | start _ _ _ _ he | openGap _ _ _ _ _ _ _ he | openPrefix _ _ _ _ he
  | repairPrefix _ _ _ _ _ _ he | shrink _ _ _ _ _ _ _ he => exact h.reads hkind he.reads
  | merge _ _ _ _ _ _ _ he =>
    exact (h.reassignSegment hkind he.moved).reads hkind he.reads
  | backOff _ _ _ _ he =>
    rw [he.empty, observations, flatMap_nil, append_nil]
    exact h.toSnapshot he.zones he.evidence

/-- **The records of every catalog of a run show its history and sum up its evidence.** -/
theorem Run.settled (h : Run ext served confirms metadata log s) :
    Settled (fromSnapshot s) (observations ext log) := by
  induction h with
  | new =>
    refine ⟨⟨cachesOk_fromSnapshot _, fun _ => ?_, fun _ => .none⟩, fun _ hz => ?_⟩
    · simp [HasEvidence, fromSnapshot, newCatalog, observations]
    · cases hz
  | step _ hstep ih =>
    obtain ⟨-, -, _, he⟩ := hstep.effect
    rw [observations_append]
    exact he.settled ih wellKinded_observations

end Runs

end LogosInspector.Catalog
