import LogosInspector.Catalog.Reorder

/-!
# When the committee of a channel does not depend on the order of reading

What a catalog says of the committee of a channel is updated operation by operation, in the
order in which blocks are read. A configuration counts when it comes after those that were
read, and an inscription when it comes after everything of its channel that was read. Blocks
that are recovered later come before what was read already, so they are read *late*, and then
the two rules do not undo each other: a configuration that is recovered late resets the slot
at which the committee was observed, and a root inscription that is recovered late makes no
committee (`run_committee_differs`).

Late operations are harmless if the committee was last observed at an inscription that comes
after them and after every configuration (`Superseded`): from two states with the same members
it leads to the same state (`Standing.observe_agree`). So in a run in which all late operations
are superseded, the committee is that of a reading in the order of the chain
(`run_committee_sequential`).
-/

namespace LogosInspector.Catalog

open List Option
open ZoneEvidenceReference (channelId l1Slot)

/-! ### What is known of a committee -/

/-- An inscription without a parent. -/
def ChannelObservationKind.isRoot : ChannelObservationKind → Bool
  | .inscription _ parentIsRoot _ _ => parentIsRoot
  | _ => false

/-- What a catalog says of the committee of a channel. -/
structure Standing where
  committee : Option SequencerCommitteeSummary
  keyCount : Option ℕ
  withdrawThreshold : Option Text
  deriving DecidableEq

/-- What is known of a channel, apart from conflicts. -/
def ChannelView.standing (view : ChannelView) : Standing :=
  ⟨view.committee, view.keyCount, view.withdrawThreshold⟩

variable {a : Standing} {t : ℕ}

namespace Standing

/-- Nothing is known. -/
def initial : Standing := ⟨none, none, none⟩

def view (standing : Standing) : ChannelView :=
  ⟨standing.committee, standing.keyCount, standing.withdrawThreshold, false⟩

/-- What is known after an operation. -/
def observe (standing : Standing) (slot : ℕ) (observation : ChannelObservation)
    (isLatest isLatestConfiguration : Bool) : Standing :=
  (standing.view.observe slot observation isLatest isLatestConfiguration).standing

/-- The members of the committee. -/
def members (standing : Standing) : Option (List Text) :=
  standing.committee.map SequencerCommitteeSummary.members

/-- The committee has the same members, and so on: only who was active when may differ. -/
structure SameMembers (a b : Standing) : Prop where
  members : a.members = b.members
  keyCount : a.keyCount = b.keyCount
  withdrawThreshold : a.withdrawThreshold = b.withdrawThreshold

theorem SameMembers.refl (a : Standing) : SameMembers a a := ⟨rfl, rfl, rfl⟩

theorem SameMembers.trans {b c : Standing} (h : SameMembers a b) (h' : SameMembers b c) :
    SameMembers a c :=
  ⟨h.members.trans h'.members, h.keyCount.trans h'.keyCount,
    h.withdrawThreshold.trans h'.withdrawThreshold⟩

/-- The committee was not observed at the slot. -/
def Stale (slot : ℕ) (standing : Standing) : Prop :=
  ∀ committee ∈ standing.committee, committee.observedAtSlot ≠ some slot

variable {b : Standing} {slot : ℕ} {o : ChannelObservation} {isLatest isLatestConfiguration : Bool}

theorem observe_standing (view : ChannelView) :
    (view.observe slot o isLatest isLatestConfiguration).standing =
      view.standing.observe slot o isLatest isLatestConfiguration := by
  unfold observe ChannelView.observe
  cases o.kind with
  | configuration => cases isLatestConfiguration <;> rfl
  | inscription =>
    cases hc : view.committee with
    | none | some _ =>
      simp only [ChannelView.standing, Standing.view, hc]
      split_ifs <;> rfl
  | operation => rfl

/-- Only configurations and inscriptions change a committee. -/
theorem observe_operation (h : o.kind = .operation) :
    a.observe slot o isLatest isLatestConfiguration = a := by
  rw [observe, ChannelView.observe, h]
  rfl

variable {keys : List Text} {threshold signer : Text} {evidenceKind : ZoneEvidenceKind}
  {root conflicting : Bool}

theorem observe_configuration (h : o.kind = .configuration keys threshold) :
    a.observe slot o isLatest isLatestConfiguration =
      if isLatestConfiguration = true then
        ⟨some
          { members := keys
            activeMember := (a.committee.bind
              SequencerCommitteeSummary.activeMember).filter (keys.contains ·)
            observedAtSlot := some slot }, some keys.length, some threshold⟩
      else a := by
  rw [observe, ChannelView.observe, h]
  cases isLatestConfiguration <;> rfl

section

variable (h : o.kind = .inscription evidenceKind root signer conflicting)

include h

theorem observe_inscription_some
    {committee : SequencerCommitteeSummary} (ha : a.committee = some committee) :
    a.observe slot o isLatest isLatestConfiguration =
      if isLatest = true ∧ signer ∈ committee.members then
        ⟨some { committee with activeMember := some signer, observedAtSlot := some slot },
          a.keyCount, a.withdrawThreshold⟩
      else a := by
  rw [observe, ChannelView.observe, h]
  simp only [Standing.view, ha]
  split_ifs with hcnt
  · rfl
  · rw [← ha]
    rfl

theorem observe_inscription_none (ha : a.committee = none) :
    a.observe slot o isLatest isLatestConfiguration =
      if root = true ∧ isLatest = true then
        ⟨some { members := [signer], activeMember := some signer, observedAtSlot := some slot },
          some 1, a.withdrawThreshold⟩
      else a := by
  rw [observe, ChannelView.observe, h]
  simp only [Standing.view, ha]
  split_ifs with hcnt
  · rfl
  · rw [← ha]
    rfl

end

/-- An operation at another slot leaves a committee that was not observed at a slot so. -/
theorem Stale.observe (h : Stale t a) (hslot : slot ≠ t) :
    Stale t (a.observe slot o isLatest isLatestConfiguration) := by
  cases hk : o.kind with
  | configuration =>
    rw [observe_configuration hk]
    split_ifs
    · rintro _ ⟨⟩
      simpa using hslot
    · exact h
  | inscription =>
    cases hc : a.committee with
    | none =>
      rw [observe_inscription_none hk hc]
      split_ifs
      · rintro _ ⟨⟩
        simpa using hslot
      · exact h
    | some _ =>
      rw [observe_inscription_some hk hc]
      split_ifs
      · rintro _ ⟨⟩
        simpa using hslot
      · exact h
  | operation =>
    rw [observe_operation hk]
    exact h

/-- **A configuration settles who the members are.** -/
theorem sameMembers_configuration (h : o.kind = .configuration keys threshold) :
    SameMembers (a.observe slot o isLatest true) (b.observe slot o isLatest true) := by
  rw [observe_configuration h, observe_configuration h, if_pos rfl, if_pos rfl]
  exact ⟨rfl, rfl, rfl⟩

/-- With the same members, either both committees are there or neither is. -/
theorem SameMembers.committee_cases (h : SameMembers a b) :
    (a.committee = none ∧ b.committee = none) ∨ ∃ x y, a.committee = some x ∧
      b.committee = some y ∧ x.members = y.members := by
  have hmem := h.members
  unfold Standing.members at hmem
  cases ha : a.committee with
  | none =>
    rw [ha] at hmem
    exact .inl ⟨rfl, map_eq_none_iff.1 hmem.symm⟩
  | some x =>
    rw [ha, map_some, eq_comm, map_eq_some_iff] at hmem
    obtain ⟨y, hy, hxy⟩ := hmem
    exact .inr ⟨x, y, rfl, hy, hxy.symm⟩

/-- **An inscription settles the rest.** Two committees with the same members still have the same
members after an operation; and if they differ after it, then the first was not observed at the
slot, unless the operation is a configuration at that slot. -/
theorem observe_agree (h : SameMembers a b) (hs : a = b ∨ Stale t a)
    (hslot : o.kind.isConfiguration = true → slot ≠ t) :
    SameMembers (a.observe slot o isLatest isLatestConfiguration)
        (b.observe slot o isLatest isLatestConfiguration) ∧
      (a.observe slot o isLatest isLatestConfiguration =
          b.observe slot o isLatest isLatestConfiguration ∨
        Stale t (a.observe slot o isLatest isLatestConfiguration)) := by
  rcases hs with rfl | hs
  · exact ⟨.refl _, .inl rfl⟩
  cases hk : o.kind with
  | configuration =>
    refine ⟨?_, .inr (hs.observe (hslot (by rw [hk]; rfl)))⟩
    cases isLatestConfiguration with
    | true => exact sameMembers_configuration hk
    | false =>
      rw [observe_configuration hk, observe_configuration hk]
      exact h
  | inscription =>
    rcases h.committee_cases with ⟨ha, hb⟩ | ⟨_, _, ha, hb, hxy⟩
    · rw [observe_inscription_none hk ha, observe_inscription_none hk hb, h.withdrawThreshold]
      split_ifs
      · exact ⟨.refl _, .inl rfl⟩
      · exact ⟨h, .inr hs⟩
    · rw [observe_inscription_some hk ha, observe_inscription_some hk hb,
        h.keyCount, h.withdrawThreshold, hxy]
      split_ifs
      · exact ⟨.refl _, .inl rfl⟩
      · exact ⟨h, .inr hs⟩
  | operation =>
    rw [observe_operation hk, observe_operation hk]
    exact ⟨h, .inr hs⟩

/-- An operation that makes no committee and is no configuration leaves the members. -/
theorem sameMembers_observe (hcon : o.kind.isConfiguration = false)
    (hroot : o.kind.isRoot = true → a.committee ≠ none) :
    SameMembers a (a.observe slot o isLatest isLatestConfiguration) := by
  cases hk : o.kind with
  | configuration =>
    rw [hk] at hcon
    cases hcon
  | inscription =>
    cases hc : a.committee with
    | none =>
      rw [observe_inscription_none hk hc, if_neg]
      · exact .refl _
      · rintro ⟨rfl, -⟩
        exact hroot (by rw [hk]; rfl) hc
    | some _ =>
      rw [observe_inscription_some hk hc]
      split_ifs
      · exact ⟨by rw [members, hc]; rfl, rfl, rfl⟩
      · exact .refl _
  | operation =>
    rw [observe_operation hk]
    exact .refl _

/-- An operation that comes too late changes nothing. -/
theorem observe_late (hlate : a.committee ≠ none) : a.observe slot o false false = a := by
  cases hk : o.kind with
  | configuration => exact observe_configuration hk
  | inscription =>
    obtain ⟨_, hc⟩ := ne_none_iff_exists'.1 hlate
    rw [observe_inscription_some hk hc, if_neg (by simp)]
  | operation => exact observe_operation hk

/-- A committee stays. -/
theorem committee_ne_none (h : a.committee ≠ none) :
    (a.observe slot o isLatest isLatestConfiguration).committee ≠ none := by
  obtain ⟨_, hc⟩ := ne_none_iff_exists'.1 h
  cases hk : o.kind with
  | configuration =>
    rw [observe_configuration hk]
    split_ifs
    · exact some_ne_none _
    · exact h
  | inscription =>
    rw [observe_inscription_some hk hc]
    split_ifs
    · exact some_ne_none _
    · exact h
  | operation =>
    rw [observe_operation hk]
    exact h

end Standing

/-! ### Histories -/

/-- What is known of the committee of the channel `c` after one more operation. -/
def observeStanding (c : Text) (seen : List Observed) (standing : Standing) (x : Observed) :
    Standing :=
  if x.2.channelId = c ∧ IsNew seen x then
    standing.observe x.1.checkpoint.slot x.2 (decide (IsLatest seen x))
      (decide (IsLatestConfiguration seen x))
  else standing

/-- What is known of the committee of the channel `c` after more operations. -/
def standingFrom (c : Text) (seen : List Observed) (standing : Standing) : List Observed → Standing
  | [] => standing
  | x :: rest => standingFrom c (seen ++ [x]) (observeStanding c seen standing x) rest

/-- What is known of the committee of a channel after a history of operations. -/
def standingOf (history : List Observed) (c : Text) : Standing :=
  standingFrom c [] .initial history

variable {c : Text} {seen xs : List Observed} {x : Observed}

section Histories

variable {ys pre : List Observed} {b : Standing} {y : Observed}

theorem standing_viewFrom (view : Option ChannelView) :
    ((viewFrom c seen view xs).getD .initial).standing =
      standingFrom c seen (view.getD .initial).standing xs := by
  induction xs generalizing seen view with
  | nil => rfl
  | cons _ _ ih =>
    rw [viewFrom, standingFrom, ih, observeView, observeStanding]
    split_ifs
    · rw [getD_some, Standing.observe_standing]
    · rfl

theorem standing_viewOf (history : List Observed) (c : Text) :
    ((viewOf history c).getD .initial).standing = standingOf history c :=
  standing_viewFrom none

theorem standingFrom_append : standingFrom c seen a (xs ++ ys) =
    standingFrom c (seen ++ xs) (standingFrom c seen a xs) ys := by
  induction xs generalizing seen a with
  | nil => rw [append_nil]; rfl
  | cons _ _ ih =>
    rw [cons_append, standingFrom, standingFrom, ih, append_assoc]
    rfl

theorem evidenceOrder_lt_of_slot (h : x.1.checkpoint.slot < y.1.checkpoint.slot) :
    evidenceOrder x.reference < evidenceOrder y.reference := Prod.Lex.toLex_lt_toLex.2 (.inl h)

/-- **What comes before does not matter**: operations of lower slots, and with other ids. -/
theorem standingFrom_above (hids : ∀ y ∈ seen, ∀ x ∈ xs,
      y.reference.evidenceId ≠ x.reference.evidenceId)
    (hslot : ∀ y ∈ seen, y.2.channelId = c → ∀ x ∈ xs, y.1.checkpoint.slot < x.1.checkpoint.slot) :
    standingFrom c (seen ++ pre) a xs = standingFrom c pre a xs := by
  induction xs generalizing pre a with
  | nil => rfl
  | cons x _ ih =>
    have hstep : observeStanding c (seen ++ pre) a x = observeStanding c pre a x := by
      by_cases hc : x.2.channelId = c
      · have hbelow : ∀ y ∈ seen, y.2.channelId = x.2.channelId →
            evidenceOrder y.reference < evidenceOrder x.reference := fun y hy hyc =>
          evidenceOrder_lt_of_slot (hslot y hy (hyc.trans hc) x (by simp))
        have hnew : IsNew (seen ++ pre) x ↔ IsNew pre x := by
          simp only [IsNew, forall_mem_append]
          exact and_iff_right fun y hy => hids y hy x (by simp)
        have hlate : IsLatest (seen ++ pre) x ↔ IsLatest pre x := by
          simp only [IsLatest, forall_mem_append]
          exact and_iff_right hbelow
        have hcon : IsLatestConfiguration (seen ++ pre) x ↔ IsLatestConfiguration pre x := by
          simp only [IsLatestConfiguration, forall_mem_append]
          exact and_congr_right fun _ => and_iff_right fun y hy _ => hbelow y hy
        simp only [observeStanding, hnew, hlate, hcon]
      · simp only [observeStanding, hc, false_and, if_false]
    rw [standingFrom, standingFrom, hstep, append_assoc]
    exact ih (fun y hy z hz => hids y hy z (mem_cons_of_mem _ hz))
      fun y hy hyc z hz => hslot y hy hyc z (mem_cons_of_mem _ hz)

/-- The operations of other channels do not matter. -/
theorem standingFrom_other (h : ∀ x ∈ xs, x.2.channelId ≠ c) : standingFrom c seen a xs = a := by
  induction xs generalizing seen with
  | nil => rfl
  | cons x _ ih =>
    rw [standingFrom, observeStanding, if_neg fun hx => h x (by simp) hx.1]
    exact ih fun y hy => h y (mem_cons_of_mem _ hy)

/-- **What a step keeps, a history keeps.** -/
theorem standingFrom_induction {motive : Standing → Prop}
    (hstep : ∀ x ∈ xs, x.2.channelId = c → ∀ a isLatest isLatestConfiguration, motive a →
      motive (a.observe x.1.checkpoint.slot x.2 isLatest isLatestConfiguration))
    (h : motive a) : motive (standingFrom c seen a xs) := by
  induction xs generalizing seen a with
  | nil => exact h
  | cons x _ ih =>
    refine ih (fun y hy => hstep y (mem_cons_of_mem _ hy)) ?_
    unfold observeStanding
    split_ifs with hcnt
    · exact hstep x (by simp) hcnt.1 a _ _ h
    · exact h

/-- **What a step keeps of two states, a history keeps.** -/
theorem standingFrom_induction₂ {motive : Standing → Standing → Prop}
    (hstep : ∀ x ∈ xs, x.2.channelId = c → ∀ a b isLatest isLatestConfiguration, motive a b →
      motive (a.observe x.1.checkpoint.slot x.2 isLatest isLatestConfiguration)
        (b.observe x.1.checkpoint.slot x.2 isLatest isLatestConfiguration))
    (h : motive a b) : motive (standingFrom c seen a xs) (standingFrom c seen b xs) := by
  induction xs generalizing seen a b with
  | nil => exact h
  | cons x _ ih =>
    refine ih (fun y hy => hstep y (mem_cons_of_mem _ hy)) ?_
    unfold observeStanding
    split_ifs with hcnt
    · exact hstep x (by simp) hcnt.1 a b _ _ h
    · exact h

theorem stale_standingFrom (h : Standing.Stale t a)
    (hslot : ∀ x ∈ xs, x.2.channelId = c → x.1.checkpoint.slot ≠ t) :
    Standing.Stale t (standingFrom c seen a xs) :=
  standingFrom_induction (fun x hx hc _ _ _ ha => ha.observe (hslot x hx hc)) h

/-- Two committees of the same members agree once one of them is observed at the slot. -/
theorem agree_standingFrom (h : Standing.SameMembers a b) (hstale : Standing.Stale t a)
    (hslot : ∀ x ∈ xs, x.2.channelId = c → x.2.kind.isConfiguration = true →
      x.1.checkpoint.slot ≠ t) :
    standingFrom c seen a xs = standingFrom c seen b xs ∨
      Standing.Stale t (standingFrom c seen a xs) :=
  (standingFrom_induction₂ (motive := fun a b => Standing.SameMembers a b ∧
      (a = b ∨ Standing.Stale t a))
    (fun x hx hc _ _ _ _ hab => Standing.observe_agree hab.1 hab.2 (hslot x hx hc))
    ⟨h, .inr hstale⟩).2

/-- Operations that make no committee and are no configurations leave the members. -/
theorem sameMembers_standingFrom (h : ∀ x ∈ xs, x.2.channelId = c →
      x.2.kind.isConfiguration = false ∧ (x.2.kind.isRoot = true → a.committee ≠ none)) :
    Standing.SameMembers a (standingFrom c seen a xs) := by
  refine standingFrom_induction (fun x hx hc _ _ _ hab => ?_) (.refl a)
  obtain ⟨hcon, hroot⟩ := h x hx hc
  refine hab.trans (Standing.sameMembers_observe hcon fun hisR => ?_)
  rcases hab.committee_cases with ⟨ha, -⟩ | ⟨_, _, -, hb, -⟩
  · exact absurd ha (hroot hisR)
  · rw [hb]
    exact some_ne_none _

/-- **Operations that come too late change nothing.** -/
theorem standingFrom_late (hy : y ∈ seen) (hyc : y.2.channelId = c)
    (h : ∀ x ∈ xs, x.2.channelId = c → x.1.checkpoint.slot < y.1.checkpoint.slot ∧
      (x.2.kind ≠ .operation → a.committee ≠ none) ∧
      (x.2.kind.isConfiguration = true → ∃ z ∈ seen, z.2.channelId = c ∧
        z.2.kind.isConfiguration = true ∧ x.1.checkpoint.slot < z.1.checkpoint.slot)) :
    standingFrom c seen a xs = a := by
  induction xs generalizing seen with
  | nil => rfl
  | cons x _ ih =>
    have hstep : observeStanding c seen a x = a := by
      unfold observeStanding
      split_ifs with hcnt
      · obtain ⟨hslot, hc, hcon⟩ := h x (by simp) hcnt.1
        by_cases hk : x.2.kind = .operation
        · exact Standing.observe_operation hk
        have hlate : ¬ IsLatest seen x := fun hlate =>
          absurd (hlate y hy (hyc.trans hcnt.1.symm)) (evidenceOrder_lt_of_slot hslot).not_gt
        have hnot : ¬ IsLatestConfiguration seen x := by
          rintro ⟨hisC, hlast⟩
          obtain ⟨z, hz, hzc, hzconf, hzslot⟩ := hcon hisC
          exact absurd (hlast z hz hzconf (hzc.trans hcnt.1.symm))
            (evidenceOrder_lt_of_slot hzslot).not_gt
        rw [decide_eq_false hlate, decide_eq_false hnot]
        exact Standing.observe_late (hc hk)
      · rfl
    rw [standingFrom, hstep]
    refine ih (mem_append_left _ hy) fun z hz hzc => ?_
    obtain ⟨hslot, hc, hcon⟩ := h z (mem_cons_of_mem _ hz) hzc
    refine ⟨hslot, hc, fun hisC => ?_⟩
    obtain ⟨w, hw, hrest⟩ := hcon hisC
    exact ⟨w, mem_append_left _ hw, hrest⟩

end Histories

/-! ### A block that is read late -/

variable {ext : Externals} {A B L log : List CatalogL1Block}

variable {y : Observed}

section Late

variable {b : CatalogL1Block}

/-- The first configuration of a channel counts. -/
theorem exists_first_configuration (hhist : Consistent xs)
    (h : ∃ x ∈ xs, x.2.channelId = c ∧ x.2.kind.isConfiguration = true) :
    ∃ pre y post keys threshold, xs = pre ++ y :: post ∧
      y.2.kind = .configuration keys threshold ∧ (y.2.channelId = c ∧ IsNew pre y) ∧
      IsLatestConfiguration pre y := by
  obtain ⟨y, hf⟩ : ∃ y, xs.find? (fun x => decide (x.2.channelId = c ∧
      x.2.kind.isConfiguration = true)) = some y := by
    rw [← isSome_iff_exists, find?_isSome]
    obtain ⟨x, hx, hconf⟩ := h
    exact ⟨x, hx, decide_eq_true hconf⟩
  obtain ⟨hy, pre, post, rfl, hfirst⟩ := find?_eq_some_iff_append.1 hf
  obtain ⟨hc, hconf⟩ := of_decide_eq_true hy
  have hn : ∀ z ∈ pre, z.2.kind.isConfiguration = true → z.2.channelId ≠ c := by
    intro z hz hzconf hzc
    simpa [hzc, hzconf] using hfirst z hz
  refine ⟨pre, y, post, ?_⟩
  cases hk : y.2.kind with
  | configuration keys threshold =>
    refine ⟨keys, threshold, rfl, rfl, ⟨hc, fun z hz hid => ?_⟩, hconf, fun z hz hzconf hzc => ?_⟩
    · -- the same evidence would be a configuration of the channel as well
      have hs := hhist.same z (by simp [hz]) y (by simp) hid
      have hzconf := (hhist.isConfiguration_iff (by simp [hz]) (by simp) hs).2 hconf
      exact hn z hz hzconf ((congrArg channelId hs).trans hc)
    · exact absurd (hzc.trans hc) (hn z hz hzconf)
  | inscription | operation => rw [hk] at hconf; cases hconf

/-- A channel with a configuration has a committee. -/
theorem committee_of_configuration (hhist : Consistent xs)
    (h : ∃ x ∈ xs, x.2.channelId = c ∧ x.2.kind.isConfiguration = true) :
    (standingFrom c [] a xs).committee ≠ none := by
  obtain ⟨_, _, _, _, _, rfl, hk, hcnt, hlast⟩ :=
    exists_first_configuration hhist h
  rw [standingFrom_append, standingFrom, nil_append]
  refine standingFrom_induction (motive := fun a => a.committee ≠ none)
    (fun _ _ _ _ _ _ ha => Standing.committee_ne_none ha) ?_
  rw [observeStanding, if_pos hcnt, decide_eq_true hlast, Standing.observe_configuration hk,
    if_pos rfl]
  exact some_ne_none _

/-- Blocks in the order of their slots. -/
abbrev Ascending (blocks : List CatalogL1Block) : Prop :=
  blocks.Pairwise fun a b => a.checkpoint.slot < b.checkpoint.slot

theorem Ascending.observations (h : Ascending L) : (observations ext L).Pairwise
    fun x y => x.1.checkpoint.slot ≤ y.1.checkpoint.slot := by
  refine pairwise_flatMap.2 ⟨fun _ _ => ?_, h.imp fun hlt _ hx _ hy => ?_⟩
  · exact pairwise_map.2 (pairwise_of_forall fun _ _ => le_rfl)
  · obtain ⟨_, -, rfl⟩ := mem_map.1 hx
    obtain ⟨_, -, rfl⟩ := mem_map.1 hy
    exact hlt.le

theorem Consistent.of_subset (h : Consistent (Catalog.observations ext L))
    (hsub : ∀ b ∈ log, b ∈ L) :
    Consistent (Catalog.observations ext log) := by
  refine h.mono fun _ hx => ?_
  obtain ⟨hb, ho⟩ := mem_observations.1 hx
  exact mem_observations.2 ⟨hsub _ hb, ho⟩

/-- Operations of one id are in one slot. -/
theorem Consistent.slot_eq (h : Consistent xs) (hx : x ∈ xs) (hy : y ∈ xs)
    (hid : x.reference.evidenceId = y.reference.evidenceId) :
    x.1.checkpoint.slot = y.1.checkpoint.slot :=
  congrArg l1Slot (h.same x hx y hy hid)

/-- The committee after blocks in the order of their slots: the later ones go on from there. -/
theorem standingOf_append (hhist : Consistent (observations ext (A ++ B)))
    (hslot : ∀ a ∈ A, ∀ b ∈ B, a.checkpoint.slot < b.checkpoint.slot) :
    standingOf (observations ext (A ++ B)) c =
      standingFrom c [] (standingOf (observations ext A) c) (observations ext B) := by
  rw [observations_append] at hhist ⊢
  have hlt : ∀ y ∈ observations ext A, ∀ x ∈ observations ext B,
      y.1.checkpoint.slot < x.1.checkpoint.slot := fun y hy x hx =>
    hslot _ (mem_observations.1 hy).1 _ (mem_observations.1 hx).1
  rw [standingOf, standingFrom_append, nil_append, ← append_nil (observations ext A)]
  refine standingFrom_above (fun y hy x hx hid => ?_) fun y hy _ => hlt y hy
  exact (hlt y hy x hx).ne (hhist.slot_eq (mem_append_left _ hy) (mem_append_right _ hx) hid)

/-- A block in the middle: the committee after all blocks, with it and without it. -/
theorem standingOf_middle (hhist : Consistent (observations ext (A ++ b :: B)))
    (hsort : Ascending (A ++ b :: B)) (c : Text) :
    standingOf (observations ext (A ++ b :: B)) c = standingFrom c []
        (standingFrom c [] (standingOf (observations ext A) c) (observations ext [b]))
        (observations ext B) ∧
      standingOf (observations ext (A ++ B)) c =
        standingFrom c [] (standingOf (observations ext A) c) (observations ext B) := by
  obtain ⟨-, hbB, hAb⟩ := pairwise_append.1 hsort
  have hbelow := (pairwise_cons.1 hbB).1
  constructor
  · rw [show A ++ b :: B = (A ++ [b]) ++ B by simp] at hhist ⊢
    rw [standingOf_append hhist, standingOf_append]
    · exact hhist.of_subset fun x hx => mem_append_left _ hx
    · intro a ha b' hb'
      exact hAb a ha b' (by simp [mem_singleton.1 hb'])
    · intro a ha b' hb'
      rcases mem_append.1 ha with ha | ha
      · exact hAb a ha b' (mem_cons_of_mem _ hb')
      · rw [mem_singleton.1 ha]
        exact hbelow b' hb'
  · refine standingOf_append (hhist.of_subset fun _ hx => ?_) fun a ha b' hb' =>
      hAb a ha b' (mem_cons_of_mem _ hb')
    rcases mem_append.1 hx with h | h <;> simp [h]

/-- **A block that could not matter any more**, in the order of the slots: after it, and after
every configuration, comes an inscription at which the committee was observed. -/
theorem standingOf_insert (hhist : Consistent (observations ext (A ++ b :: B)))
    (hsort : Ascending (A ++ b :: B)) (hb : b.checkpoint.slot < t)
    (ho : ∃ committee, (standingOf (observations ext (A ++ B)) c).committee = some committee ∧
      committee.observedAtSlot = some t)
    (hcon : ∀ y ∈ observations ext (A ++ B), y.2.channelId = c →
      y.2.kind.isConfiguration = true → y.1.checkpoint.slot < t)
    (hlate : ∀ x ∈ observations ext [b], x.2.channelId = c →
      (x.2.kind.isConfiguration = true → ∃ y ∈ observations ext B, y.2.channelId = c ∧
        y.2.kind.isConfiguration = true) ∧
      (x.2.kind.isRoot = true → ∃ y ∈ observations ext (A ++ B), y.2.channelId = c ∧
        y.2.kind.isConfiguration = true)) :
    standingOf (observations ext (A ++ b :: B)) c = standingOf (observations ext (A ++ B)) c := by
  obtain ⟨_, hbB, hAb⟩ := pairwise_append.1 hsort
  obtain ⟨_, hB⟩ := pairwise_cons.1 hbB
  have hsubA : Consistent (observations ext A) := hhist.of_subset fun x hx => by simp [hx]
  have hsubB : Consistent (observations ext B) := hhist.of_subset fun x hx => by simp [hx]
  obtain ⟨hwith, hw⟩ := standingOf_middle hhist hsort c
  set stA := standingOf (observations ext A) c with hstA
  have hstale : Standing.Stale t stA := by
    refine stale_standingFrom (fun _ h => by cases h) fun x hx _ => ?_
    have hlt := hAb _ (mem_observations.1 hx).1 b (by simp)
    omega
  rw [hwith, hw]
  have hagree : standingFrom c [] stA (observations ext B) =
        standingFrom c [] (standingFrom c [] stA (observations ext [b])) (observations ext B) ∨
      Standing.Stale t (standingFrom c [] stA (observations ext B)) := by
    by_cases hconf : ∃ y ∈ observations ext B, y.2.channelId = c ∧ y.2.kind.isConfiguration = true
    · -- a later configuration settles the members
      obtain ⟨pre, y, _, _, _, hsplit, hk, hcnt, hlast⟩ :=
        exists_first_configuration hsubB hconf
      have hyB : y ∈ observations ext B := by simp [hsplit]
      have hin : ∀ x ∈ observations ext B, x ∈ observations ext (A ++ B) := fun x hx => by
        rw [observations_append]
        exact mem_append_right _ hx
      have hy := hcon y (hin y hyB) hcnt.1 (isConfiguration_of_kind hk)
      have hasc : (observations ext B).Pairwise _ := Ascending.observations hB
      rw [hsplit] at hasc
      have hpre : ∀ x ∈ pre, x.1.checkpoint.slot ≠ t := fun x hx => by
        have hle := (pairwise_append.1 hasc).2.2 x hx y (by simp)
        omega
      rw [hsplit, standingFrom_append, standingFrom_append, standingFrom, standingFrom,
        nil_append, observeStanding, observeStanding, if_pos hcnt, if_pos hcnt,
        decide_eq_true hlast]
      refine agree_standingFrom (Standing.sameMembers_configuration hk)
        ((stale_standingFrom hstale fun x hx _ => hpre x hx).observe hy.ne) fun x hx hc hxconf => ?_
      exact (hcon x (hin x (by simp [hsplit, hx])) hc hxconf).ne
    · -- the block leaves the members as they are
      refine agree_standingFrom (sameMembers_standingFrom fun x hx hc => ⟨?_, fun hroot => ?_⟩)
        hstale fun x hx hc hxconf => absurd ⟨x, hx, hc, hxconf⟩ hconf
      · exact Bool.eq_false_iff.2 fun hxconf => hconf ((hlate x hx hc).1 hxconf)
      · obtain ⟨y, hy, hyc, hyconf⟩ := (hlate x hx hc).2 hroot
        rw [observations_append] at hy
        rcases mem_append.1 hy with hy | hy
        · exact committee_of_configuration hsubA ⟨y, hy, hyc, hyconf⟩
        · exact absurd ⟨y, hy, hyc, hyconf⟩ hconf
  rcases hagree with heq | hs
  · exact heq.symm
  · obtain ⟨committee, hcommittee, ht⟩ := ho
    rw [hw] at hcommittee
    exact absurd ht (hs committee hcommittee)

end Late

/-! ### A step -/

variable {blocks : List CatalogL1Block}

/-- **An operation that could not matter any more** after the operations `seen`: the committee was
last observed after it and after every configuration; a configuration comes before another one,
and a root inscription does not make the first committee. -/
structure SupersededIn (seen : List Observed) (x : Observed) : Prop where
  observed : ∃ committee ∈ (standingOf seen x.2.channelId).committee,
    ∃ t ∈ committee.observedAtSlot, x.1.checkpoint.slot < t ∧
      ∀ y ∈ seen, y.2.channelId = x.2.channelId → y.2.kind.isConfiguration = true →
        y.1.checkpoint.slot < t
  configured : x.2.kind.isConfiguration = true → ∃ y ∈ seen, y.2.channelId = x.2.channelId ∧
    y.2.kind.isConfiguration = true ∧ x.1.checkpoint.slot < y.1.checkpoint.slot
  rooted : x.2.kind.isRoot = true → ∃ y ∈ seen, y.2.channelId = x.2.channelId ∧
    y.2.kind.isConfiguration = true

theorem standingFrom_operations (h : ∀ x ∈ xs, x.2.channelId = c → x.2.kind = .operation) :
    standingFrom c seen a xs = a :=
  standingFrom_induction (motive := (· = a)) (fun x hx hc _ _ _ ha => by
    rw [Standing.observe_operation (h x hx hc), ha]) rfl

theorem mem_observations_singleton {b : CatalogL1Block}
    (hx : x ∈ observations ext [b]) : x.1 = b :=
  mem_singleton.1 (mem_observations.1 hx).1

/-- **One more block is read**: after the blocks `log` and `p` comes `b`; in the order of the
slots it stands between `A` and `B`. -/
structure Inserted (ext : Externals) (log p : List CatalogL1Block) (b : CatalogL1Block)
    (A B : List CatalogL1Block) : Prop where
  consistent : Consistent (observations ext (log ++ (p ++ [b])))
  ascending : Ascending (p ++ [b])
  sorted : Ascending (A ++ b :: B)
  perm : (A ++ B).Perm (log ++ p)

namespace Inserted

variable {p : List CatalogL1Block} {b : CatalogL1Block}

variable (h : Inserted ext log p b A B)

include h

theorem consistent_sorted : Consistent (observations ext (A ++ b :: B)) :=
  h.consistent.of_subset fun x hx => by
    have hin := h.perm.mem_iff (a := x)
    simp only [mem_append, mem_cons] at hx hin ⊢
    tauto

theorem mem_iff (y : Observed) :
    y ∈ observations ext (A ++ B) ↔ y ∈ observations ext (log ++ p) := by
  rw [mem_observations, mem_observations, h.perm.mem_iff]

theorem slot_lt {x : CatalogL1Block} (hx : x ∈ p) : x.checkpoint.slot < b.checkpoint.slot :=
  (pairwise_append.1 h.ascending).2.2 x hx b (by simp)

/-- What was read is below the block or above it. -/
theorem below_or_above (hy : y ∈ observations ext (log ++ p)) :
    y.1.checkpoint.slot < b.checkpoint.slot ∨
      (b.checkpoint.slot < y.1.checkpoint.slot ∧ y ∈ observations ext B) := by
  obtain ⟨-, hbB, hAb⟩ := pairwise_append.1 h.sorted
  obtain ⟨hyin, hyo⟩ := mem_observations.1 hy
  rcases mem_append.1 (h.perm.mem_iff.2 hyin) with hyA | hyB
  · exact .inl (hAb y.1 hyA b (by simp))
  · exact .inr ⟨(pairwise_cons.1 hbB).1 y.1 hyB, mem_observations.2 ⟨hyB, hyo⟩⟩

/-- What is above the block was read in an earlier step. -/
theorem mem_log (hy : y ∈ observations ext B) : y ∈ observations ext log := by
  obtain ⟨-, hbB, -⟩ := pairwise_append.1 h.sorted
  obtain ⟨hyB, hyo⟩ := mem_observations.1 hy
  have hslot := (pairwise_cons.1 hbB).1 y.1 hyB
  refine mem_observations.2 ⟨(mem_append.1 (h.perm.mem_iff.1
    (mem_append_right _ hyB))).resolve_right fun hyp => ?_, hyo⟩
  exact absurd (h.slot_lt hyp) hslot.not_gt

omit h in
theorem read_eq (log p : List CatalogL1Block) (b : CatalogL1Block) (c : Text) :
    standingOf (observations ext (log ++ (p ++ [b]))) c =
      standingFrom c (observations ext (log ++ p))
        (standingOf (observations ext (log ++ p)) c) (observations ext [b]) := by
  rw [← append_assoc, observations_append, standingOf, standingFrom_append, nil_append]
  rfl

/-- A block of which nothing above was read counts as in the order of the slots. -/
theorem standingOf_eq_of_new (hnew : ∀ y ∈ observations ext B, y.2.channelId ≠ c)
    (ih : standingOf (observations ext (log ++ p)) c = standingOf (observations ext (A ++ B)) c) :
    standingOf (observations ext (log ++ (p ++ [b]))) c =
      standingOf (observations ext (A ++ b :: B)) c := by
  obtain ⟨hwith, hw⟩ := standingOf_middle h.consistent_sorted h.sorted c
  rw [standingFrom_other hnew] at hwith hw
  rw [read_eq, hwith, ih, hw, ← append_nil (observations ext (log ++ p))]
  refine standingFrom_above (fun y hy x hx hid => ?_) fun y hy hyc x hx => ?_
  · -- the same evidence in another block: that has another slot
    have hin : ∀ z ∈ observations ext (log ++ p) ++ observations ext [b],
        z ∈ observations ext (log ++ (p ++ [b])) := fun _ _ => by
      rwa [← append_assoc, observations_append]
    have hslot := h.consistent.slot_eq (hin y (mem_append_left _ hy))
      (hin x (mem_append_right _ hx)) hid
    rw [mem_observations_singleton hx] at hslot
    rcases h.below_or_above hy with hlt | ⟨hlt, -⟩
    · exact hlt.ne hslot
    · exact hlt.ne' hslot
  · rw [mem_observations_singleton hx]
    rcases h.below_or_above hy with hlt | ⟨-, hyB⟩
    · exact hlt
    · exact absurd hyc (hnew y hyB)

/-- A block that is read late, and could not matter any more. -/
theorem standingOf_eq_of_late (hy : y ∈ observations ext B) (hyc : y.2.channelId = c)
    (hlate : ∀ x ∈ observations ext (p ++ [b]), x.2.kind ≠ .operation →
      (∃ y ∈ observations ext log, y.2.channelId = x.2.channelId ∧
        x.1.checkpoint.slot < y.1.checkpoint.slot) → SupersededIn (observations ext log) x)
    (ih : standingOf (observations ext (log ++ p)) c = standingOf (observations ext (A ++ B)) c) :
    standingOf (observations ext (log ++ (p ++ [b]))) c =
      standingOf (observations ext (A ++ b :: B)) c := by
  obtain ⟨-, hbB, -⟩ := pairwise_append.1 h.sorted
  have hyslot := (pairwise_cons.1 hbB).1 y.1 (mem_observations.1 hy).1
  by_cases hrel : ∃ x ∈ observations ext [b], x.2.channelId = c ∧ x.2.kind ≠ .operation
  case neg =>
    -- nothing in the block concerns the committee
    have ho : ∀ x ∈ observations ext [b], x.2.channelId = c → x.2.kind = .operation :=
      fun x hx hc => by_contra fun hne => hrel ⟨x, hx, hc, hne⟩
    obtain ⟨hwith, hwithout⟩ := standingOf_middle h.consistent_sorted h.sorted c
    rw [standingFrom_operations ho] at hwith
    rw [read_eq, standingFrom_operations ho, hwith, ih, hwithout]
  obtain ⟨x, hx, rfl, hk⟩ := hrel
  have hs : ∀ z ∈ observations ext (p ++ [b]), z.2.channelId = x.2.channelId →
      z.1.checkpoint.slot < y.1.checkpoint.slot ∧
        (z.2.kind ≠ .operation → SupersededIn (observations ext log) z) := by
    intro z hz hzc
    have hle : z.1.checkpoint.slot < y.1.checkpoint.slot := by
      rcases mem_append.1 (mem_observations.1 hz).1 with hzp | hzb
      · exact (h.slot_lt hzp).trans hyslot
      · rw [mem_singleton.1 hzb]
        exact hyslot
    exact ⟨hle, fun hzkind => hlate z hz hzkind ⟨y, h.mem_log hy, hyc.trans hzc.symm, hle⟩⟩
  have hxmem : x ∈ observations ext (p ++ [b]) := by
    rw [observations_append]
    exact mem_append_right _ hx
  obtain ⟨hobserved, -, -⟩ := (hs x hxmem rfl).2 hk
  obtain ⟨committee, hcommittee, t, ht, hxt, hconfigurations⟩ := hobserved
  have hxb := mem_observations_singleton hx
  -- in the order of reading nothing changes, from the start of the step on
  have hread : ∀ q, (∀ z ∈ q, z ∈ p ++ [b]) →
      standingOf (observations ext (log ++ q)) x.2.channelId =
        standingOf (observations ext log) x.2.channelId := by
    intro _ hq
    rw [observations_append, standingOf, standingFrom_append, nil_append]
    refine standingFrom_late (h.mem_log hy) hyc fun z hz hzc => ?_
    obtain ⟨hzq, hzo⟩ := mem_observations.1 hz
    obtain ⟨hslot, hz'⟩ := hs z (mem_observations.2 ⟨hq _ hzq, hzo⟩) hzc
    refine ⟨hslot, fun _ => ?_, fun hcon => ?_⟩
    · rw [show standingFrom x.2.channelId [] .initial (observations ext log) =
        standingOf (observations ext log) x.2.channelId from rfl, mem_def.1 hcommittee]
      exact some_ne_none _
    · have hne : z.2.kind ≠ .operation := fun heq => by
        rw [heq] at hcon
        cases hcon
      obtain ⟨w, hw, hwc, hwconf, hwslot⟩ := (hz' hne).configured hcon
      exact ⟨w, hw, hwc.trans hzc, hwconf, hwslot⟩
  have hp := hread p fun z hz => mem_append_left _ hz
  rw [hread (p ++ [b]) fun z hz => hz, ← hp, ih]
  refine (standingOf_insert (t := t) h.consistent_sorted h.sorted (hxb ▸ hxt) ?_ ?_ ?_).symm
  · exact ⟨committee, by rw [← ih, hp]; exact hcommittee, ht⟩
  · intro z hz hzc hzconf
    obtain ⟨hzin, hzo⟩ := mem_observations.1 ((h.mem_iff z).1 hz)
    rcases mem_append.1 hzin with hzlog | hzp
    · exact hconfigurations z (mem_observations.2 ⟨hzlog, hzo⟩) hzc hzconf
    · exact (h.slot_lt hzp).trans (hxb ▸ hxt)
  · intro z hz hzc
    have hin : ∀ w ∈ observations ext log, w ∈ observations ext (log ++ p) := fun w hw => by
      rw [observations_append]
      exact mem_append_left _ hw
    have hz' := (hs z (by rw [observations_append]; exact mem_append_right _ hz) hzc).2
    refine ⟨fun hcon => ?_, fun hroot => ?_⟩
    · obtain ⟨w, hw, hwc, hwconf, hwslot⟩ := (hz' fun heq => by
        rw [heq] at hcon
        cases hcon).configured hcon
      rw [mem_observations_singleton hz] at hwslot
      rcases h.below_or_above (hin w hw) with hlt | ⟨-, hwB⟩
      · exact absurd hlt hwslot.not_gt
      · exact ⟨w, hwB, hwc.trans hzc, hwconf⟩
    · obtain ⟨w, hw, hwc, hwconf⟩ := (hz' fun heq => by
        rw [heq] at hroot
        cases hroot).rooted hroot
      exact ⟨w, (h.mem_iff w).2 (hin w hw), hwc.trans hzc, hwconf⟩

end Inserted

/-- **One step.** If the committee before it is the same in the order of reading as in the order
of the slots, and its late operations could not matter any more, then it is so after it. -/
theorem standingOf_step (hhist : Consistent (observations ext (log ++ blocks)))
    (hblks : Ascending blocks)
    (hlate : ∀ x ∈ observations ext blocks, x.2.kind ≠ .operation →
      (∃ y ∈ observations ext log, y.2.channelId = x.2.channelId ∧
        x.1.checkpoint.slot < y.1.checkpoint.slot) → SupersededIn (observations ext log) x)
    (ih : ∀ L, Ascending L → L.Perm log →
      standingOf (observations ext log) c = standingOf (observations ext L) c)
    (hsort : Ascending L) (hperm : L.Perm (log ++ blocks)) :
    standingOf (observations ext (log ++ blocks)) c = standingOf (observations ext L) c := by
  induction blocks using List.reverseRecOn generalizing L with
  | nil =>
    rw [append_nil] at hperm ⊢
    exact ih L hsort hperm
  | append_singleton p b ihp =>
    obtain ⟨A, B, rfl⟩ := append_of_mem (hperm.mem_iff.2 (by simp : b ∈ log ++ (p ++ [b])))
    have hrest : (A ++ B).Perm (log ++ p) := by
      have hcons : (b :: (A ++ B)).Perm (b :: (log ++ p)) := by
        refine perm_middle.symm.trans (hperm.trans ?_)
        rw [← append_assoc]
        exact perm_append_singleton b (log ++ p)
      exact hcons.cons_inv
    have hi : Inserted ext log p b A B := ⟨hhist, hblks, hsort, hrest⟩
    have hb := ihp (hhist.of_subset fun x hx => by
        rcases mem_append.1 hx with h | h <;> simp [h])
      (pairwise_append.1 hblks).1
      (fun x hx => hlate x (by rw [observations_append]; exact mem_append_left _ hx))
      (hsort.sublist ((sublist_cons_self b B).append_left A)) hrest
    by_cases hnew : ∃ y ∈ observations ext B, y.2.channelId = c
    · obtain ⟨_, hy, hyc⟩ := hnew
      exact hi.standingOf_eq_of_late hy hyc hlate hb
    · push Not at hnew
      exact hi.standingOf_eq_of_new hnew hb

/-! ### Runs -/

/-- The configurations of a channel that the catalog has evidence of. -/
def channelConfigurations (s : CatalogSnapshot) (c : Text) : List ZoneEvidenceReference :=
  configurationsOf (channelEvidence s.evidence c)

/-- **An operation that could not matter any more to a catalog**: the committee of its channel was
last observed after it and after every configuration; if it is a configuration itself, then the
catalog has a later one, and if it is a root inscription, then the catalog has a configuration. -/
structure Superseded (s : CatalogSnapshot) (x : Observed) : Prop where
  observed : ∃ zone ∈ s.zones.find? x.2.channelId, ∃ committee ∈ zone.sequencerCommittee,
    ∃ t ∈ committee.observedAtSlot, x.1.checkpoint.slot < t ∧
      ∀ e ∈ channelConfigurations s x.2.channelId, e.l1Slot < t
  configured : x.2.kind.isConfiguration = true →
    ∃ e ∈ channelConfigurations s x.2.channelId, x.1.checkpoint.slot < e.l1Slot
  rooted : x.2.kind.isRoot = true → channelConfigurations s x.2.channelId ≠ []

/-- **The late operations of blocks could not matter any more**: the configurations and inscriptions
of channels of which the catalog has later evidence. -/
def LateSuperseded (ext : Externals) (s : CatalogSnapshot) (blocks : List CatalogL1Block) : Prop :=
  ∀ x ∈ observations ext blocks, x.2.kind ≠ .operation →
    (∃ e ∈ channelEvidence s.evidence x.2.channelId, x.1.checkpoint.slot < e.l1Slot) →
    Superseded s x

section Runs

variable {served served' : Set CatalogL1Block}
  {confirms confirms' : CatalogSnapshot → CatalogRepairConfirmation → Prop}
  {metadata metadata' : CatalogMetadata} {log log' : List CatalogL1Block} {s s' : CatalogSnapshot}
  {context : CatalogEngineContext}

/-- **A run whose steps all meet a condition** on the catalog and on the blocks that are read. -/
inductive RunWhere (ext : Externals) (served : Set CatalogL1Block)
    (confirms : CatalogSnapshot → CatalogRepairConfirmation → Prop)
    (meets : CatalogSnapshot → List CatalogL1Block → Prop) (metadata : CatalogMetadata) :
    (log : List CatalogL1Block) → CatalogSnapshot → Prop
  /-- Nothing has been read. -/
  | new (h : validateSnapshot (newCatalog metadata) = .ok ()) :
      RunWhere ext served confirms meets metadata [] (newCatalog metadata)
  /-- One more step. -/
  | step {log blocks : List CatalogL1Block} {s s' : CatalogSnapshot}
      (hrun : RunWhere ext served confirms meets metadata log s)
      (hstep : Step ext served confirms s blocks s') (hmeets : meets s blocks) :
      RunWhere ext served confirms meets metadata (log ++ blocks) s'

variable {meets : CatalogSnapshot → List CatalogL1Block → Prop}

theorem RunWhere.run (h : RunWhere ext served confirms meets metadata log s) :
    Run ext served confirms metadata log s := by
  induction h with
  | new h => exact .new h
  | step _ hstep _ ih => exact .step ih hstep

/-- The blocks that a step reads are in the order of their slots. -/
theorem Effect.ascending (h : Effect ext confirms s blocks context s') : Ascending blocks := by
  cases h with
  | retarget _ he | backOff _ _ _ _ he =>
    rw [he.empty]
    exact List.Pairwise.nil
  | extend _ _ _ _ _ _ he | start _ _ _ _ he | openGap _ _ _ _ _ _ _ he | openPrefix _ _ _ _ he
  | repairPrefix _ _ _ _ _ _ he | shrink _ _ _ _ _ _ _ he => exact he.chain.chain.pairwise_slot
  | merge _ _ _ _ _ _ _ he =>
    by_cases hempty : blocks = []
    · rw [hempty]
      exact List.Pairwise.nil
    · obtain ⟨_, _, hends, -⟩ := he.filled hempty
      exact hends.chain.pairwise_slot

section

variable (h : Settled (WorkingCatalog.fromSnapshot s) seen)

include h

/-- An operation that was read is evidence in the catalog. -/
theorem Settled.exists_evidence (hkind : ∀ y ∈ seen, y.2.WellKinded)
    (hy : y ∈ seen) : ∃ e ∈ channelEvidence s.evidence y.2.channelId,
      e.l1Slot = y.1.checkpoint.slot ∧
        (e.evidenceKind = .channelConfiguration ↔ y.2.kind.isConfiguration = true) := by
  obtain ⟨e, he, heq⟩ := (h.primary_iff (hkind y hy).ne_channelCreated).2 ⟨y, hy, rfl⟩
  have hslot : e.l1Slot = y.1.checkpoint.slot := congrArg l1Slot heq
  have hc : e.channelId = y.2.channelId := congrArg channelId heq
  have hk : e.evidenceKind = (observedEvidence y.2.kind).1 :=
    congrArg ZoneEvidenceReference.evidenceKind heq
  refine ⟨e, mem_channelEvidence.2 ⟨he, hc⟩, hslot, ?_⟩
  rw [hk]
  exact (hkind y hy).configuration_iff

/-- A configuration that the catalog has evidence of was read. -/
theorem Settled.exists_configuration {e : ZoneEvidenceReference} (hkind : ∀ y ∈ seen,
    y.2.WellKinded)
    (he : e ∈ channelConfigurations s c) : ∃ y ∈ seen, y.2.channelId = c ∧
      y.2.kind.isConfiguration = true ∧ y.1.checkpoint.slot = e.l1Slot := by
  obtain ⟨hm, hcon⟩ := mem_filter.1 he
  obtain ⟨he, hc⟩ := mem_channelEvidence.1 hm
  have hk : e.evidenceKind = .channelConfiguration := of_decide_eq_true hcon
  have hu : e.unfiled.evidenceKind = .channelConfiguration := hk
  obtain ⟨y, hy, heq⟩ := (h.primary_iff (e := e.unfiled) (by rw [hu]; decide)).1 ⟨e, he, rfl⟩
  have hslot : y.1.checkpoint.slot = e.l1Slot := congrArg l1Slot heq
  have hyc : y.2.channelId = e.channelId := congrArg channelId heq
  refine ⟨y, hy, hyc.trans hc, (hkind y hy).configuration_iff.1 ?_, hslot⟩
  exact (congrArg ZoneEvidenceReference.evidenceKind heq).trans hu

/-- What a record says of its committee is what the history does. -/
theorem Settled.standingOf_eq {zone : ZoneCatalogRecord} (hzone : s.zones.find? c = some zone) :
    standingOf seen c = ⟨zone.sequencerCommittee, zone.l1Channel.keyCount,
      zone.l1Channel.withdrawThreshold⟩ := by
  have hshow := h.zones c
  rw [show (WorkingCatalog.fromSnapshot s).zones.find? c = some zone from hzone] at hshow
  obtain ⟨_, hview, hshow⟩ := optionRel_some hshow
  rw [← standing_viewOf, hview, getD_some, hshow.committee, hshow.keyCount, hshow.withdrawThreshold]
  rfl

end

/-- The condition on the catalog, in terms of what was read. -/
theorem Superseded.inHistory (hrun : Run ext served confirms metadata log s)
    (h : Superseded s x) : SupersededIn (observations ext log) x := by
  have hset := hrun.settled
  have hkind : ∀ y ∈ observations ext log, y.2.WellKinded := wellKinded_observations
  obtain ⟨_, hzone, committee, hc, t, ht, hslot, hcon⟩ := h.observed
  refine ⟨⟨committee, ?_, t, ht, hslot, fun y hy hyc hyconf => ?_⟩, fun hconf => ?_, fun hroot =>
    ?_⟩
  · rw [hset.standingOf_eq hzone]
    exact hc
  · obtain ⟨e, he, heslot, hekind⟩ := hset.exists_evidence hkind hy
    rw [hyc] at he
    rw [← heslot]
    exact hcon e (mem_filter.2 ⟨he, decide_eq_true (hekind.2 hyconf)⟩)
  · obtain ⟨e, he, hlt⟩ := h.configured hconf
    obtain ⟨y, hy, hyc, hyconf, hyslot⟩ := hset.exists_configuration hkind he
    exact ⟨y, hy, hyc, hyconf, hyslot ▸ hlt⟩
  · obtain ⟨_, he⟩ := exists_mem_of_ne_nil _ (h.rooted hroot)
    obtain ⟨y, hy, hyc, hyconf, -⟩ := hset.exists_configuration hkind he
    exact ⟨y, hy, hyc, hyconf⟩

/-- **In a run in which late operations could not matter any more, the committee is that of the
order of the slots.** -/
theorem RunWhere.standingOf_eq
    (h : RunWhere ext served confirms (LateSuperseded ext) metadata log s) (c : Text) :
    ∀ L, Ascending L → L.Perm log →
      standingOf (observations ext log) c = standingOf (observations ext L) c := by
  induction h with
  | new =>
    intro L _ hperm
    rw [hperm.eq_nil]
  | @step log blocks _ s' hrun hstep hmeets ih =>
    intro _ hsort hperm
    obtain ⟨-, -, _, heffect⟩ := hstep.effect
    have hnext : Run ext served confirms metadata (log ++ blocks) s' := .step hrun.run hstep
    refine standingOf_step (hnext.settled.consistent wellKinded_observations) heffect.ascending
      (fun x hx hk hlate => ?_) ih hsort hperm
    obtain ⟨_, hy, hyc, hyslot⟩ := hlate
    obtain ⟨e, he, heslot, -⟩ := hrun.run.settled.exists_evidence wellKinded_observations hy
    rw [hyc] at he
    exact (hmeets x hx hk ⟨e, he, heslot ▸ hyslot⟩).inHistory hrun.run

/-- What two records say of the committee of a channel is the same. -/
structure SameCommittee (record record' : ZoneCatalogRecord) : Prop where
  committee : record'.sequencerCommittee = record.sequencerCommittee
  keyCount : record'.l1Channel.keyCount = record.l1Channel.keyCount
  withdrawThreshold : record'.l1Channel.withdrawThreshold = record.l1Channel.withdrawThreshold

/-- **The committee does not depend on the order of reading, if late operations could not matter
any more**: a catalog whose steps were all like that, and one that has read the same blocks in the
order of their slots, say the same of the committee of every channel. -/
theorem run_committee_sequential (hash : NoCollisions ext served)
    (h : RunWhere ext served confirms (LateSuperseded ext) metadata log s)
    (hash' : NoCollisions ext served') (h' : Run ext served' confirms' metadata' log' s')
    (hsequential : Ascending log') (hlog : ∀ b, b ∈ log ↔ b ∈ log') (c : Text) :
    Option.Rel SameCommittee (s.zones.find? c) (s'.zones.find? c) := by
  have hperm : log'.Perm log := (perm_ext_iff_of_nodup (h'.eq_of_slot hash').1
    (h.run.eq_of_slot hash).1).2 fun b => (hlog b).symm
  have hstanding := h.standingOf_eq c log' hsequential hperm
  have hrel := h.run.sameSummary hash hash' h' hlog c
  cases hzone : s.zones.find? c with rw [hzone] at hrel
  | none =>
    cases hzone' : s'.zones.find? c with
    | none => exact .none
    | some _ =>
      rw [hzone'] at hrel
      cases hrel
  | some _ =>
    obtain ⟨_, hzone', -⟩ := optionRel_some hrel
    rw [hzone']
    rw [h.run.settled.standingOf_eq hzone, h'.settled.standingOf_eq hzone'] at hstanding
    obtain ⟨hcommittee, hkeys, hthreshold⟩ := Standing.mk.inj hstanding
    exact .some ⟨hcommittee.symm, hkeys.symm, hthreshold.symm⟩

/-- A replay whose steps meet a condition is such a run. -/
theorem RunWhere.replay {requests : List Request}
    (hs : ∀ req ∈ requests, ∀ b ∈ req.blocks, b ∈ served)
    (hcon : ∀ s c, confirms s c) (hrun : RunWhere ext served confirms meets metadata log s)
    (hmeets : ∀ step ∈ replaySteps ext s requests, meets step.1 step.2)
    (h : Catalog.replay ext s requests = some (log', s')) :
    RunWhere ext served confirms meets metadata (log ++ log') s' :=
  replay_induction hs hcon
    (fun hm hb hstep => .step hb hstep (hmeets _ hm)) hrun h

end Runs

instance (s : CatalogSnapshot) (x : Observed) : Decidable (Superseded s x) :=
  decidable_of_iff ((∃ zone ∈ s.zones.find? x.2.channelId, ∃ committee ∈ zone.sequencerCommittee,
      ∃ t ∈ committee.observedAtSlot, x.1.checkpoint.slot < t ∧
        ∀ e ∈ channelConfigurations s x.2.channelId, e.l1Slot < t) ∧
    (x.2.kind.isConfiguration = true →
      ∃ e ∈ channelConfigurations s x.2.channelId, x.1.checkpoint.slot < e.l1Slot) ∧
    (x.2.kind.isRoot = true → channelConfigurations s x.2.channelId ≠ []))
    ⟨fun ⟨h₁, h₂, h₃⟩ => ⟨h₁, h₂, h₃⟩, fun h => ⟨h.observed, h.configured, h.rooted⟩⟩

instance (ext : Externals) (s : CatalogSnapshot) (blocks : List CatalogL1Block) :
    Decidable (LateSuperseded ext s blocks) :=
  inferInstanceAs (Decidable (∀ x ∈ observations ext blocks, x.2.kind ≠ .operation →
    (∃ e ∈ channelEvidence s.evidence x.2.channelId, x.1.checkpoint.slot < e.l1Slot) →
    Superseded s x))

/-- A chain whose second block is harmless when it is read last: a member inscribes in it, and
another one later. -/
def sampleHarmless : List CatalogL1Block :=
  sampleChainOf [sampleConfiguration 'c' ["A", "B"]] [sampleInscription 'c' '1' "A"]
    [sampleInscription 'c' '1' "B"]

/-- The chain is read in order, and with its second block last: both catalogs say the same. -/
theorem run_committee_sequential_sample :
    ∃ log s log' s', RunWhere sampleExternals {b | b ∈ sampleHarmless} (fun _ _ => True)
        (LateSuperseded sampleExternals) sampleMetadata log s ∧
      Run sampleExternals {b | b ∈ sampleHarmless} (fun _ _ => True) sampleMetadata log' s' ∧
      log.map (·.checkpoint.slot) = [0, 9, 4] ∧ log'.map (·.checkpoint.slot) = [0, 4, 9] ∧
      s.zones.size = 1 ∧
      ∀ c, Option.Rel SameCommittee (s.zones.find? c) (s'.zones.find? c) := by
  have hash : NoCollisions sampleExternals {b | b ∈ sampleHarmless} :=
    noCollisions_of_list (by decide +kernel)
  have hmeets : ∀ step ∈ replaySteps sampleExternals (newCatalog sampleMetadata)
      (sampleRepairOf [sampleConfiguration 'c' ["A", "B"]] [sampleInscription 'c' '1' "A"]
        [sampleInscription 'c' '1' "B"]), LateSuperseded sampleExternals step.1 step.2 := by
    decide +kernel
  have hread : (replay sampleExternals (newCatalog sampleMetadata)
      (sampleRepairOf [sampleConfiguration 'c' ["A", "B"]] [sampleInscription 'c' '1' "A"]
        [sampleInscription 'c' '1' "B"])).map
        (fun r => (r.1.map (·.checkpoint.slot), r.2.zones.size)) = some ([0, 9, 4], 1) := by
    decide +kernel
  obtain ⟨⟨log, s⟩, hreplay, heq⟩ := map_eq_some_iff.1 hread
  obtain ⟨hslots, hsize⟩ := Prod.mk.inj heq
  have hrun : RunWhere sampleExternals {b | b ∈ sampleHarmless} (fun _ _ => True)
      (LateSuperseded sampleExternals) sampleMetadata log s :=
    RunWhere.replay (blocks_sampleRepairOf _ _ _) (fun _ _ => trivial) (.new (by decide)) hmeets
      hreplay
  obtain ⟨log', s', hrun', hslots'⟩ := exists_run_of_replay sampleExternals
    {b | b ∈ sampleHarmless} sampleMetadata (sampleSequentialOf _ _ _)
    (fun r => r.1.map (·.checkpoint.slot)) (b := [0, 4, 9]) (by decide)
    (blocks_sampleSequentialOf _ _ _) (by decide +kernel)
  have hnodup : (sampleHarmless.map (·.checkpoint.slot)).Nodup := by decide
  have hlog : ∀ b, b ∈ log ↔ b ∈ log' := fun _ => by
    rw [hrun.run.mem_log_iff hash hnodup (by rw [hslots]; decide),
      hrun'.mem_log_iff hash hnodup (by rw [hslots']; decide)]
  have hsequential : Ascending log' := by
    have hpairwise : (log'.map (·.checkpoint.slot)).Pairwise (· < ·) := by
      rw [hslots']
      decide
    exact pairwise_map.1 hpairwise
  exact ⟨log, s, log', s', hrun, hrun', hslots, hslots', hsize,
    run_committee_sequential hash hrun hash hrun' hsequential hlog⟩

/-- **A committee that depends on the order of reading.** The blocks of the sample chain are read
in order; and the second one, with a configuration, is missing when the third is read, and then
found. There is no gap in either catalog, they have read the same blocks, and they say different
things of the committee. -/
theorem run_committee_differs :
    NoCollisions sampleExternals {b | b ∈ sampleChain} ∧ ∃ log s log' s',
      Run sampleExternals {b | b ∈ sampleChain} (fun _ _ => True) sampleMetadata log s ∧
      Run sampleExternals {b | b ∈ sampleChain} (fun _ _ => True) sampleMetadata log' s' ∧
      Ascending log' ∧ (∀ b, b ∈ log ↔ b ∈ log') ∧ s.gaps.size = 0 ∧ s'.gaps.size = 0 ∧
      ∃ zone ∈ s.zones, ∃ zone' ∈ s'.zones, zone.channelId = zone'.channelId ∧
        zone.sequencerCommittee ≠ zone'.sequencerCommittee := by
  have hash : NoCollisions sampleExternals {b | b ∈ sampleChain} :=
    noCollisions_of_list (by decide +kernel)
  -- what is looked at in the two catalogs
  obtain ⟨log, s, hrun, heq⟩ := exists_run_of_replay sampleExternals {b | b ∈ sampleChain}
    sampleMetadata sampleRepairRequests (fun r => (r.1.map (·.checkpoint.slot), r.2.gaps.size,
      r.2.zones.records.map fun zone => (zone.channelId, zone.sequencerCommittee)))
    (b := ([0, 9, 4], 0, [(sampleId 'c',
      some ⟨["A".toList, "B".toList], some "A".toList, some 4⟩)])) (by decide)
    (blocks_sampleRepairOf _ _ _) (by decide +kernel)
  obtain ⟨log', s', hrun', heq'⟩ := exists_run_of_replay sampleExternals {b | b ∈ sampleChain}
    sampleMetadata sampleSequentialRequests (fun r => (r.1.map (·.checkpoint.slot), r.2.gaps.size,
      r.2.zones.records.map fun zone => (zone.channelId, zone.sequencerCommittee)))
    (b := ([0, 4, 9], 0, [(sampleId 'c',
      some ⟨["A".toList, "B".toList], some "A".toList, some 9⟩)])) (by decide)
    (blocks_sampleSequentialOf _ _ _) (by decide +kernel)
  simp only [Prod.mk.injEq] at heq heq'
  obtain ⟨hslots, hgaps, hzones⟩ := heq
  obtain ⟨hslots', hgaps', hzones'⟩ := heq'
  obtain ⟨zone, hzone, hfields⟩ := map_eq_singleton_iff.1 hzones
  obtain ⟨zone', hzone', hfields'⟩ := map_eq_singleton_iff.1 hzones'
  obtain ⟨hid, hcommittee⟩ := Prod.mk.inj hfields
  obtain ⟨hid', hcommittee'⟩ := Prod.mk.inj hfields'
  have hnodup : (sampleChain.map (·.checkpoint.slot)).Nodup := by decide
  have hsequential : (log'.map (·.checkpoint.slot)).Pairwise (· < ·) := by
    rw [hslots']
    decide
  refine ⟨hash, log, s, log', s', hrun, hrun', pairwise_map.1 hsequential, fun _ => ?_, hgaps,
    hgaps', zone, Table.mem_records.1 (hzone ▸ mem_singleton_self _), zone',
    Table.mem_records.1 (hzone' ▸ mem_singleton_self _), hid.trans hid'.symm, ?_⟩
  · rw [hrun.mem_log_iff hash hnodup (by rw [hslots]; decide),
      hrun'.mem_log_iff hash hnodup (by rw [hslots']; decide)]
  · rw [hcommittee, hcommittee']
    decide

end LogosInspector.Catalog
