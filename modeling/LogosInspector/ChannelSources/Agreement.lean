import LogosInspector.ChannelSources.Display

/-!
# Agreement of the sources of a Channel

From the last observations of a Channel's sources one state is derived: whether its Sequencers have
the same chain, and whether the Indexer has it too. Two loops, one over all pairs of Sequencers and
one over the Sequencers and the Indexer's head, fill five sets, and the state depends on which of
them are empty. Here each state is characterised by what the sources know about each other's heads
(`agreement_state_means`): a source *matches* a block that is no higher than its own head if it
knows the same hash of it, and *conflicts* with it if it knows another.
-/

namespace LogosInspector.ChannelSources

open List

/-! ### Observations -/

inductive ChannelSourceHealthState
  | pending
  | reachable
  | degraded
  | unreachable
  | incomplete
  | unsupported
  | channelMismatch
deriving DecidableEq

structure ChannelSourceObservation where
  sourceId : Text
  role : ChannelSourceRole
  bindingState : Option ChannelSourceBindingState
  health : ChannelSourceHealthState
  lastGood : Option ChannelSourceLastGood
  comparisonBlocks : List ChannelSourceBlockObservation
deriving DecidableEq

/-- What is observed of a Channel, which has at most one Indexer. -/
structure ChannelSourceObservationSet where
  observations : List ChannelSourceObservation
  indexer : ∀ a ∈ observations, a.role = .indexer → ∀ b ∈ observations, b.role = .indexer → a = b

def blockHash (block : ChannelSourceBlockObservation) : Option Text :=
  block.headerHash.filter (· ≠ [])

def ChannelSourceObservation.head? (observation : ChannelSourceObservation) :
    Option ChannelSourceBlockObservation := observation.lastGood.bind (·.head)

def ChannelSourceObservation.isReadEligible (observation : ChannelSourceObservation) : Bool :=
  match observation.role with
  | .sequencer => observation.bindingState.any (·.isReadEligible)
  | .indexer => true

def ChannelSourceObservation.isComparable (observation : ChannelSourceObservation) : Bool :=
  observation.isReadEligible &&
    (observation.health = .reachable || observation.health = .degraded) &&
    (observation.head?.bind blockHash).isSome

def observationHashAt (observation : ChannelSourceObservation) (blockId : ℕ) : Option Text := do
  let head ← observation.head?
  if head.blockId = blockId then blockHash head
  else (observation.comparisonBlocks.find? (·.blockId = blockId)).bind blockHash

/-! ### Comparing -/

inductive ZoneKind
  | sequencerZone
  | dataChannel
  | unknown
deriving DecidableEq

inductive SequencerAgreementState
  | notApplicable
  | unconfigured
  | unobserved
  | singleSource
  | converged
  | lagging
  | skewUnverified
  | divergent
  | finalizedConflict
deriving DecidableEq

structure ComparableSource where
  observation : ChannelSourceObservation
  head : ChannelSourceBlockObservation

/-- The sets that the comparison fills. -/
structure Comparison where
  comparedBlockIds : Finset ℕ := ∅
  laggingSourceIds : Finset Text := ∅
  divergentBlockIds : Finset ℕ := ∅
  finalizedConflictSourceIds : Finset Text := ∅
  unverifiedBlockIds : Finset ℕ := ∅

def Comparison.compare (sets : Comparison) (blockId : ℕ) : Comparison :=
  { sets with comparedBlockIds := insert blockId sets.comparedBlockIds }

def Comparison.diverge (sets : Comparison) (blockId : ℕ) : Comparison :=
  { sets with divergentBlockIds := insert blockId sets.divergentBlockIds }

def Comparison.doubt (sets : Comparison) (blockId : ℕ) : Comparison :=
  { sets with unverifiedBlockIds := insert blockId sets.unverifiedBlockIds }

/-- The body of the loop over pairs. -/
def comparePair (sets : Comparison) (left right : ComparableSource) : Comparison :=
  if left.head.blockId = right.head.blockId then
    let sets := sets.compare left.head.blockId
    if blockHash left.head ≠ blockHash right.head then sets.diverge left.head.blockId else sets
  else
    let (lower, higher) :=
      if left.head.blockId < right.head.blockId then (left, right) else (right, left)
    let blockId := lower.head.blockId
    match observationHashAt higher.observation blockId with
    | none => sets.doubt blockId
    | some higherHash =>
      let sets := sets.compare blockId
      if some higherHash = blockHash lower.head then
        { sets with laggingSourceIds := insert lower.observation.sourceId sets.laggingSourceIds }
      else sets.diverge blockId

def compareSequencerPairs : List ComparableSource → Comparison → Comparison
  | [], sets => sets
  | left :: rest, sets => compareSequencerPairs rest (rest.foldl (comparePair · left ·) sets)

/-- The head of the Indexer, if it is comparable. -/
def finalizedHead (set : ChannelSourceObservationSet) : Option ChannelSourceBlockObservation :=
  ((set.observations.find? (·.role = .indexer)).filter (·.isComparable)).bind (·.head?)

/-- The body of the loop over the Sequencers. -/
def compareFinalized (finalizedHead : ChannelSourceBlockObservation) (finalizedHash : Text)
    (sets : Comparison) (sequencer : ComparableSource) : Comparison :=
  let blockId := finalizedHead.blockId
  if sequencer.head.blockId < blockId then sets.doubt blockId
  else
    match observationHashAt sequencer.observation blockId with
    | none => sets.doubt blockId
    | some sequencerHash =>
      let sets := sets.compare blockId
      if sequencerHash ≠ finalizedHash then
        { sets with
          finalizedConflictSourceIds :=
            insert sequencer.observation.sourceId sets.finalizedConflictSourceIds }
      else sets

def compareFinalizedHead (sequencers : List ComparableSource) (set : ChannelSourceObservationSet)
    (sets : Comparison) : Comparison :=
  match finalizedHead set with
  | none => sets
  | some head =>
    match blockHash head with
    | none => sets
    | some hash => sequencers.foldl (compareFinalized head hash) sets

/-- The agreement of a Zone's sources; its sets are listed in order. -/
structure ZoneSourceAgreement extends Comparison where
  state : SequencerAgreementState
  comparableSourceCount : ℕ := 0
  eligibleSourceIds : Finset Text := ∅

def comparableSequencers (set : ChannelSourceObservationSet) : List ComparableSource :=
  ((set.observations.filter (·.role = .sequencer)).filter (·.isComparable)).filterMap
    fun observation => observation.head?.map (⟨observation, ·⟩)

def projectAgreement (kind : ZoneKind) (config : Option ChannelSourceConfig)
    (set : Option ChannelSourceObservationSet) : ZoneSourceAgreement :=
  if kind = .dataChannel then { state := .notApplicable }
  else
    match config with
    | none => { state := .unconfigured }
    | some config =>
      if config.sequencerSources = [] then { state := .unconfigured }
      else
        match set with
        | none => { state := .unobserved }
        | some set =>
          let sequencers := comparableSequencers set
          if sequencers.isEmpty then { state := .unobserved }
          else
            let sets := compareFinalizedHead sequencers set (compareSequencerPairs sequencers {})
            let distinctHeads := (sequencers.map (·.head.blockId)).toFinset
            { sets with
              state :=
                if sets.finalizedConflictSourceIds ≠ ∅ then .finalizedConflict
                else if sets.divergentBlockIds ≠ ∅ then .divergent
                else if sequencers.length = 1 then .singleSource
                else if sets.unverifiedBlockIds ≠ ∅ then .skewUnverified
                else if 1 < distinctHeads.card then .lagging
                else .converged
              comparableSourceCount := sequencers.length
              eligibleSourceIds := (sequencers.map (·.observation.sourceId)).toFinset }

/-! ### What a source knows of a block -/

section Knowledge

/-- A source knows the hash of a block, which is no higher than its head. -/
def ComparableSource.MatchesAt (source : ComparableSource) (block : ChannelSourceBlockObservation) :
    Prop :=
  block.blockId ≤ source.head.blockId ∧
    observationHashAt source.observation block.blockId = blockHash block

/-- A source knows another hash. -/
def ComparableSource.ConflictsAt (source : ComparableSource)
    (block : ChannelSourceBlockObservation) : Prop :=
  block.blockId ≤ source.head.blockId ∧ ∃ hash,
    observationHashAt source.observation block.blockId = some hash ∧ some hash ≠ blockHash block

/-- A source can compare a block with its own. -/
def ComparableSource.Reaches (source : ComparableSource) (block : ChannelSourceBlockObservation) :
    Prop :=
  block.blockId ≤ source.head.blockId ∧ observationHashAt source.observation block.blockId ≠ none

variable {source left right : ComparableSource} {block : ChannelSourceBlockObservation}
  {sets : Comparison} {sequencers : List ComparableSource}

theorem ComparableSource.matchesAt_iff (hblk : blockHash block ≠ none) :
    source.MatchesAt block ↔ source.Reaches block ∧ ¬ source.ConflictsAt block := by
  unfold MatchesAt Reaches ConflictsAt
  cases observationHashAt source.observation block.blockId with
  | none => simp [hblk.symm]
  | some hash =>
    simp only [Option.some.injEq, exists_eq_left', ne_eq, reduceCtorEq, not_false_eq_true, and_true]
    tauto

/-- A Sequencer that is compared knows its own head. -/
structure ComparableSource.Sound (source : ComparableSource) : Prop where
  hashed : blockHash source.head ≠ none
  own : observationHashAt source.observation source.head.blockId = blockHash source.head

variable {set : ChannelSourceObservationSet}

theorem mem_comparableSequencers :
    source ∈ comparableSequencers set ↔ source.observation ∈ set.observations ∧
      source.observation.role = .sequencer ∧ source.observation.isComparable = true ∧
      source.observation.head? = some source.head := by
  simp only [comparableSequencers, mem_filterMap, mem_filter, decide_eq_true_eq,
    Option.map_eq_some_iff]
  constructor
  · rintro ⟨_, ⟨⟨hmem, hrole⟩, hc⟩, _, hhead, rfl⟩
    exact ⟨hmem, hrole, hc, hhead⟩
  · rintro ⟨hmem, hrole, hc, hhead⟩
    exact ⟨_, ⟨⟨hmem, hrole⟩, hc⟩, _, hhead, rfl⟩

theorem hash_ne_none_of_isComparable {observation : ChannelSourceObservation}
    (h : observation.isComparable = true) (hhead : observation.head? = some block) :
    blockHash block ≠ none := by
  simp only [ChannelSourceObservation.isComparable, hhead, Bool.and_eq_true, Option.bind_some] at h
  exact Option.isSome_iff_ne_none.1 h.2

theorem sound_of_mem (h : source ∈ comparableSequencers set) :
    source.Sound := by
  obtain ⟨-, -, hc, hhead⟩ := mem_comparableSequencers.1 h
  exact ⟨hash_ne_none_of_isComparable hc hhead, by simp [observationHashAt, hhead]⟩

/-! ### What the loops find -/

theorem comparePair_spec (sets : Comparison) (hleft : left.Sound) (hright : right.Sound) :
    ((comparePair sets left right).divergentBlockIds = ∅ ↔
        sets.divergentBlockIds = ∅ ∧ ¬ right.ConflictsAt left.head ∧
          ¬ left.ConflictsAt right.head) ∧
      ((comparePair sets left right).unverifiedBlockIds = ∅ ↔
        sets.unverifiedBlockIds = ∅ ∧ (left.head.blockId < right.head.blockId →
          right.Reaches left.head) ∧
          (right.head.blockId < left.head.blockId → left.Reaches right.head)) ∧
      (comparePair sets left right).finalizedConflictSourceIds =
        sets.finalizedConflictSourceIds := by
  obtain ⟨hhash, hown⟩ := hleft
  obtain ⟨hhash', hown'⟩ := hright
  obtain ⟨l, hl⟩ := Option.ne_none_iff_exists'.1 hhash
  obtain ⟨r, hr⟩ := Option.ne_none_iff_exists'.1 hhash'
  unfold comparePair ComparableSource.Reaches ComparableSource.ConflictsAt
  rcases lt_trichotomy left.head.blockId right.head.blockId with hlt | heq | hgt
  · cases hh : observationHashAt right.observation left.head.blockId with
    | none => simp [hlt.ne, hlt, hlt.le, hlt.not_ge, hh, Comparison.doubt]
    | some _ =>
      simp only [hlt.ne, hlt, hlt.not_ge, hh, if_false, if_true, hl]
      split_ifs <;> simp_all [Comparison.compare, Comparison.diverge, hlt.le]
  · rw [if_pos heq, heq, ← heq, hown, heq, hown', hl, hr]
    by_cases hsame : l = r
    · simp [hsame, Comparison.compare]
    · simp [hsame, Ne.symm hsame, Comparison.compare, Comparison.diverge]
  · cases hh : observationHashAt left.observation right.head.blockId with
    | none => simp [hgt.ne', hgt, hgt.le, hgt.not_ge, hgt.not_gt, hh, Comparison.doubt]
    | some _ =>
      simp only [hgt.ne', hgt, hgt.not_ge, hgt.not_gt, hh, if_false, hr]
      split_ifs <;> simp_all [Comparison.compare, Comparison.diverge, hgt.le]

theorem compareFinalized_spec {finalizedHash : Text} (hblk : blockHash block = some finalizedHash)
    (sets : Comparison) (source : ComparableSource) :
    ((compareFinalized block finalizedHash sets source).finalizedConflictSourceIds = ∅ ↔
        sets.finalizedConflictSourceIds = ∅ ∧ ¬ source.ConflictsAt block) ∧
      ((compareFinalized block finalizedHash sets source).unverifiedBlockIds = ∅ ↔
        sets.unverifiedBlockIds = ∅ ∧ source.Reaches block) ∧
      (compareFinalized block finalizedHash sets source).divergentBlockIds =
        sets.divergentBlockIds := by
  unfold compareFinalized ComparableSource.Reaches ComparableSource.ConflictsAt
  rw [hblk]
  rcases lt_or_ge source.head.blockId block.blockId with hlt | hle
  · simp [hlt, hlt.not_ge, Comparison.doubt]
  · cases hhash : observationHashAt source.observation block.blockId with
    | none => simp [hle, hle.not_gt, hhash, Comparison.doubt]
    | some hash =>
      by_cases hsame : hash = finalizedHash <;>
        simp [hle, hle.not_gt, hhash, hsame, Comparison.compare]

/-- What holds after a loop, if each round adds its part. -/
theorem foldl_iff {σ α : Type} {f : σ → α → σ} {P : σ → Prop} {R : α → Prop} {l : List α}
    (h : ∀ s, ∀ a ∈ l, P (f s a) ↔ P s ∧ R a) (s : σ) : P (l.foldl f s) ↔ P s ∧ ∀ a ∈ l, R a := by
  induction l generalizing s with
  | nil => simp
  | cons a _ ih =>
    rw [foldl_cons, ih fun s b hb => h s b (mem_cons_of_mem a hb),
      h s a mem_cons_self, forall_mem_cons, and_assoc]

/-- The loop over pairs, if a round finds out about both sources of its pair. -/
theorem compareSequencerPairs_iff {P : Comparison → Prop}
    {R : ComparableSource → ComparableSource → Prop} (hsound : ∀ source ∈ sequencers, source.Sound)
    (hrefl : ∀ source, source.Sound → R source source)
    (h : ∀ sets left right, left.Sound → right.Sound →
      (P (comparePair sets left right) ↔ P sets ∧ R left right ∧ R right left))
    (sets : Comparison) :
    P (compareSequencerPairs sequencers sets) ↔
      P sets ∧ ∀ left ∈ sequencers, ∀ right ∈ sequencers, R left right := by
  induction sequencers generalizing sets with
  | nil => simp [compareSequencerPairs]
  | cons left rest ih =>
    obtain ⟨hleft, hrest⟩ := forall_mem_cons.1 hsound
    rw [compareSequencerPairs, ih hrest,
      foldl_iff fun sets right hmem => h sets left right hleft (hrest right hmem)]
    simp only [forall_mem_cons, hrefl left hleft, true_and, forall_and, and_assoc]
    exact and_congr_right fun _ => and_left_comm

theorem ComparableSource.Sound.not_conflictsAt (h : source.Sound) :
    ¬ source.ConflictsAt source.head := by
  rintro ⟨-, _, hhash, hne⟩
  exact hne (hhash.symm.trans h.own)

/-- What the two loops find together. -/
structure Found (set : ChannelSourceObservationSet) (sequencers : List ComparableSource)
    (sets : Comparison) : Prop where
  conflict : sets.finalizedConflictSourceIds = ∅ ↔
    ∀ block ∈ finalizedHead set, ∀ source ∈ sequencers, ¬ source.ConflictsAt block
  divergence : sets.divergentBlockIds = ∅ ↔
    ∀ lower ∈ sequencers, ∀ source ∈ sequencers, ¬ source.ConflictsAt lower.head
  doubt : sets.unverifiedBlockIds = ∅ ↔
    (∀ lower ∈ sequencers, ∀ source ∈ sequencers, lower.head.blockId < source.head.blockId →
      source.Reaches lower.head) ∧
    ∀ block ∈ finalizedHead set, ∀ source ∈ sequencers, source.Reaches block

theorem finalizedHead_hashed (h : finalizedHead set = some block) :
    blockHash block ≠ none := by
  obtain ⟨_, hind, hhead⟩ := Option.bind_eq_some_iff.1 h
  exact hash_ne_none_of_isComparable (Option.filter_eq_some_iff.1 hind).2 hhead

theorem found_compare (set : ChannelSourceObservationSet)
    (hsound : ∀ source ∈ sequencers, source.Sound) :
    Found set sequencers (compareFinalizedHead sequencers set
      (compareSequencerPairs sequencers {})) := by
  have hdiv := compareSequencerPairs_iff (P := (·.divergentBlockIds = ∅))
    (R := fun lower source => ¬ source.ConflictsAt lower.head) hsound
    (fun _ h => h.not_conflictsAt) (fun sets _ _ h h' => (comparePair_spec sets h h').1) {}
  have hdoubt := compareSequencerPairs_iff (P := (·.unverifiedBlockIds = ∅))
    (R := fun lower source => lower.head.blockId < source.head.blockId → source.Reaches lower.head)
    hsound (fun _ _ h => absurd h (lt_irrefl _))
    (fun sets _ _ h h' => (comparePair_spec sets h h').2.1) {}
  have hconflict := compareSequencerPairs_iff (P := (·.finalizedConflictSourceIds = ∅))
    (R := fun _ _ => True) hsound (fun _ _ => trivial)
    (fun sets _ _ h h' => by rw [(comparePair_spec sets h h').2.2, and_true, and_true]) {}
  simp only [true_and, implies_true] at hdiv hdoubt hconflict
  unfold compareFinalizedHead
  cases hhead : finalizedHead set with
  | none => exact ⟨by simp [hhead, hconflict], hdiv, by simp [hhead, hdoubt]⟩
  | some block =>
    obtain ⟨hash, hhash⟩ := Option.ne_none_iff_exists'.1 (finalizedHead_hashed hhead)
    simp only [hhash]
    refine ⟨?_, ?_, ?_⟩
    · refine (foldl_iff (P := (·.finalizedConflictSourceIds = ∅))
        (fun sets source _ => (compareFinalized_spec hhash sets source).1) _).trans ?_
      simp [hhead, hconflict]
    · refine (foldl_iff (P := fun sets : Comparison => sets.divergentBlockIds = ∅)
        (R := fun _ => True) (fun sets source _ => ?_) _).trans ?_
      · rw [(compareFinalized_spec hhash sets source).2.2, and_true]
      · simpa using hdiv
    · refine (foldl_iff (P := (·.unverifiedBlockIds = ∅))
        (fun sets source _ => (compareFinalized_spec hhash sets source).2.1) _).trans ?_
      simp [hhead, hdoubt]

/-! ### What the states mean -/

/-- All heads are the same, and the Indexer's is on the same chain. -/
def Converged (finalized : Option ChannelSourceBlockObservation)
    (sequencers : Set ComparableSource) : Prop :=
  (∀ lower ∈ sequencers, ∀ source ∈ sequencers, lower.head.blockId = source.head.blockId ∧
    blockHash lower.head = blockHash source.head) ∧
  ∀ block ∈ finalized, ∀ source ∈ sequencers, source.MatchesAt block

/-- The heads differ, but each is matched by the Sequencers that are no lower, and the Indexer's
head is matched by all. -/
def Lagging (finalized : Option ChannelSourceBlockObservation) (sequencers : Set ComparableSource) :
    Prop :=
  (∃ lower ∈ sequencers, ∃ source ∈ sequencers, lower.head.blockId ≠ source.head.blockId) ∧
  (∀ lower ∈ sequencers, ∀ source ∈ sequencers, lower.head.blockId ≤ source.head.blockId →
    source.MatchesAt lower.head) ∧
  ∀ block ∈ finalized, ∀ source ∈ sequencers, source.MatchesAt block

open Classical in
/-- What the Indexer's head and some Sequencers, as many as counted, say about their agreement. -/
noncomputable def agreementMeaning (finalized : Option ChannelSourceBlockObservation)
    (sequencers : Set ComparableSource) (count : ℕ) : SequencerAgreementState :=
  if ∃ block ∈ finalized, ∃ source ∈ sequencers, source.ConflictsAt block then .finalizedConflict
  else if ∃ lower ∈ sequencers, ∃ source ∈ sequencers, source.ConflictsAt lower.head then .divergent
  else if count = 1 then .singleSource
  else if Converged finalized sequencers then .converged
  else if Lagging finalized sequencers then .lagging
  else .skewUnverified

variable {set : ChannelSourceObservationSet}

section Agreeing

variable (hsound : ∀ source ∈ sequencers, source.Sound) (h : Found set sequencers sets)
  (hconflict : sets.finalizedConflictSourceIds = ∅) (hdivergence : sets.divergentBlockIds = ∅)

include hsound h hconflict hdivergence

/-- Without a conflict, what can be compared is matched. -/
theorem Found.matched_iff : sets.unverifiedBlockIds = ∅ ↔
    (∀ lower ∈ sequencers, ∀ source ∈ sequencers, lower.head.blockId ≤ source.head.blockId →
      source.MatchesAt lower.head) ∧
    ∀ block ∈ finalizedHead set, ∀ source ∈ sequencers, source.MatchesAt block := by
  rw [h.doubt]
  refine and_congr ⟨fun hall lower hlow source hsrc hle => ?_,
    fun hall lower hlow source hsrc hlt => ?_⟩ ⟨fun hall block hblk source hsrc => ?_,
    fun hall block hblk source hsrc => ?_⟩
  · refine (ComparableSource.matchesAt_iff (hsound lower hlow).hashed).2
      ⟨?_, h.divergence.1 hdivergence lower hlow source hsrc⟩
    rcases hle.lt_or_eq with hlt | heq
    · exact hall lower hlow source hsrc hlt
    · obtain ⟨hhas, hown⟩ := hsound source hsrc
      exact ⟨hle, by rwa [heq, hown]⟩
  · exact ((ComparableSource.matchesAt_iff (hsound lower hlow).hashed).1
      (hall lower hlow source hsrc hlt.le)).1
  · exact (ComparableSource.matchesAt_iff (finalizedHead_hashed hblk)).2
      ⟨hall block hblk source hsrc, h.conflict.1 hconflict block hblk source hsrc⟩
  · exact ((ComparableSource.matchesAt_iff (finalizedHead_hashed hblk)).1
      (hall block hblk source hsrc)).1

theorem Found.lagging_iff : sets.unverifiedBlockIds = ∅ ∧
    1 < (sequencers.map (·.head.blockId)).toFinset.card ↔
      Lagging (finalizedHead set) {source | source ∈ sequencers} := by
  rw [h.matched_iff hsound hconflict hdivergence, Finset.one_lt_card, and_comm]
  simp [Lagging]

theorem Found.converged_iff : sets.unverifiedBlockIds = ∅ ∧
    ¬ 1 < (sequencers.map (·.head.blockId)).toFinset.card ↔
      Converged (finalizedHead set) {source | source ∈ sequencers} := by
  rw [h.matched_iff hsound hconflict hdivergence, Finset.one_lt_card]
  constructor
  · rintro ⟨⟨hm, hind⟩, hsame⟩
    refine ⟨fun lower hlow source hsrc => ?_, hind⟩
    have heq : lower.head.blockId = source.head.blockId := by
      by_contra hne
      exact hsame ⟨_, by simpa using ⟨lower, hlow, rfl⟩, _, by simpa using ⟨source, hsrc, rfl⟩, hne⟩
    obtain ⟨-, hhash⟩ := hm lower hlow source hsrc heq.le
    exact ⟨heq, by rw [← hhash, heq, (hsound source hsrc).own]⟩
  · rintro ⟨hsame, hind⟩
    refine ⟨⟨fun lower hlow source hsrc hle => ⟨hle, ?_⟩, hind⟩, ?_⟩
    · obtain ⟨heq, hhash⟩ := hsame lower hlow source hsrc
      rw [heq, hhash, (hsound source hsrc).own]
    · simp only [mem_toFinset, mem_map, not_exists, not_and]
      rintro _ ⟨lower, hlow, rfl⟩ _ ⟨source, hsrc, rfl⟩
      exact not_not.2 (hsame lower hlow source hsrc).1

end Agreeing

theorem finalizedHead_perm {set' : ChannelSourceObservationSet}
    (h : set'.observations.Perm set.observations) : finalizedHead set' = finalizedHead set := by
  have hfind : set'.observations.find? (·.role = .indexer) =
      set.observations.find? (·.role = .indexer) := by
    cases hf : set.observations.find? (·.role = .indexer) with
    | none =>
      rw [find?_eq_none] at hf ⊢
      exact fun observation hmem => hf observation (h.mem_iff.1 hmem)
    | some indexer =>
      have hrole := find?_some hf
      have hmem := mem_of_find?_eq_some hf
      cases hf' : set'.observations.find? (·.role = .indexer) with
      | none => exact absurd hrole (find?_eq_none.1 hf' indexer (h.mem_iff.2 hmem))
      | some indexer' =>
        have hrole' := find?_some hf'
        have hmem' := h.mem_iff.1 (mem_of_find?_eq_some hf')
        rw [set.indexer indexer' hmem' (by simpa using hrole') indexer hmem (by simpa using hrole)]
  rw [finalizedHead, finalizedHead, hfind]

/-- **The state means what it says.** For every set of observations with a Sequencer to compare, the
state is what the Indexer's head and the comparable Sequencers say, and so it does not depend on the
order of the observations. -/
theorem agreement_state_means {kind : ZoneKind} {config : ChannelSourceConfig}
    (hkind : kind ≠ .dataChannel) (hcon : config.sequencerSources ≠ [])
    (hsome : comparableSequencers set ≠ []) :
    ∀ set' : ChannelSourceObservationSet, set'.observations.Perm set.observations →
      (projectAgreement kind (some config) (some set')).state = agreementMeaning (finalizedHead set)
        {source | source ∈ comparableSequencers set} (comparableSequencers set).length := by
  classical
  intro set' hperm
  have hseq : (comparableSequencers set').Perm (comparableSequencers set) :=
    ((hperm.filter _).filter _).filterMap _
  have hmem : {source | source ∈ comparableSequencers set'} =
      {source | source ∈ comparableSequencers set} := Set.ext fun _ => hseq.mem_iff
  have hsome' : comparableSequencers set' ≠ [] := fun h => hsome (h ▸ hseq).nil_eq.symm
  rw [← finalizedHead_perm hperm, ← hmem, ← hseq.length_eq]
  have hsound : ∀ source ∈ comparableSequencers set', source.Sound := fun _ => sound_of_mem
  have hf := found_compare set' hsound
  simp only [projectAgreement, if_neg hkind, if_neg hcon, List.isEmpty_iff, if_neg hsome',
    agreementMeaning]
  generalize compareFinalizedHead (comparableSequencers set') set'
    (compareSequencerPairs (comparableSequencers set') {}) = sets at hf
  have hconflict : sets.finalizedConflictSourceIds ≠ ∅ ↔ ∃ block ∈ finalizedHead set',
      ∃ source ∈ {source | source ∈ comparableSequencers set'}, source.ConflictsAt block := by
    rw [ne_eq, hf.conflict]
    simp
  have hdivergence : sets.divergentBlockIds ≠ ∅ ↔
      ∃ lower ∈ {source | source ∈ comparableSequencers set'},
        ∃ source ∈ {source | source ∈ comparableSequencers set'},
          source.ConflictsAt lower.head := by
    rw [ne_eq, hf.divergence]
    simp
  refine ite_congr (propext hconflict) (fun _ => rfl) fun hc => ?_
  refine ite_congr (propext hdivergence) (fun _ => rfl) fun hd => ?_
  have hc := not_not.1 (mt hconflict.1 hc)
  have hd := not_not.1 (mt hdivergence.1 hd)
  have hl := hf.lagging_iff hsound hc hd
  have hconverged := hf.converged_iff hsound hc hd
  refine if_congr Iff.rfl rfl ?_
  by_cases hu : sets.unverifiedBlockIds = ∅
  swap
  · rw [if_pos hu, if_neg fun h => hu (hconverged.2 h).1, if_neg fun h => hu (hl.2 h).1]
  rw [if_neg (not_not.2 hu)]
  by_cases hcard : 1 < ((comparableSequencers set').map (·.head.blockId)).toFinset.card
  · rw [if_pos hcard, if_neg fun h => (hconverged.2 h).2 hcard, if_pos (hl.1 ⟨hu, hcard⟩)]
  · rw [if_neg hcard, if_pos (hconverged.1 ⟨hu, hcard⟩)]

end Knowledge

/-! ### An Indexer between two Sequencers -/

namespace Sample

def block (blockId : ℕ) : ChannelSourceBlockObservation :=
  ⟨blockId, some (Text.ofNat blockId), none, 0⟩

def observation (sourceId : Text) (role : ChannelSourceRole) (head : ℕ) (known : List ℕ) :
    ChannelSourceObservation where
  sourceId := sourceId
  role := role
  bindingState := some .persistedAttested
  health := .reachable
  lastGood := some ⟨0, 0, true, none, none, some (block head)⟩
  comparisonBlocks := known.map block

/-- The higher Sequencer knows both other heads; the lower one has not reached the Indexer's. -/
def skewed : ChannelSourceObservationSet where
  observations := [observation "a".toList .sequencer 5 [],
    observation "b".toList .sequencer 10 [5, 7],
    observation "i".toList .indexer 7 []]
  indexer := by decide +kernel

def reordered : ChannelSourceObservationSet where
  observations := skewed.observations.reverse
  indexer := by decide +kernel

theorem agreement_state_reordered : comparableSequencers skewed ≠ [] ∧
    (projectAgreement .sequencerZone (some config) (some reordered)).state =
      agreementMeaning (finalizedHead skewed) {source | source ∈ comparableSequencers skewed}
        (comparableSequencers skewed).length :=
  have hsome : comparableSequencers skewed ≠ [] := by decide +kernel
  ⟨hsome, agreement_state_means (by decide) (by decide +kernel) hsome reordered (reverse_perm _)⟩

/-- No known hashes differ, and each head is known to every source above it, but the Sequencer below
the Indexer leaves the Indexer's head unverified. -/
theorem skewed_not_lagging : finalizedHead skewed = some (block 7) ∧
    (∀ source ∈ comparableSequencers skewed,
      observationHashAt source.observation 7 = none ∧ source.head.blockId < 7 ∨
        observationHashAt source.observation 7 = blockHash (block 7)) ∧
    (∀ lower ∈ comparableSequencers skewed, ∀ higher ∈ comparableSequencers skewed,
      lower.head.blockId < higher.head.blockId →
        observationHashAt higher.observation lower.head.blockId = blockHash lower.head) ∧
    (comparableSequencers skewed).map (·.head.blockId) = [5, 10] ∧
    (projectAgreement .sequencerZone (some config) (some skewed)).state = .skewUnverified := by
  decide +kernel

end Sample

end LogosInspector.ChannelSources
