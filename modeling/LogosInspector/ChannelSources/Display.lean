import LogosInspector.ChannelSources.Monitor

/-!
# Whose head a Zone is shown with

The head of a Zone and the number of its observed sources are projected from the last good
observations, whatever the binding states are. A source whose binding state is lost, or never
established, keeps an observation that it was able to give: what is shown then comes from a source
that may not be read for the Channel. This file says which probe results have to be excluded so
that in every reachable state only read-eligible Sequencers are shown
(`zone_heads_of_eligible_sources`).
-/

namespace LogosInspector.ChannelSources

open Option

/-- **What is shown comes from read-eligible Sequencers.** What is shown with a configuration is
taken from the one that is monitored under its revision; these are the same. -/
def MonitorState.ShowsEligible (state : MonitorState) : Prop :=
  ∀ channelId config, (∀ set ∈ matchingObservationSet channelId config state, set.config = config) →
    (∀ source ∈ selectedSource channelId config state,
      (selectedHead channelId config state).isSome →
        source.request.role = .sequencer ∧ source.isReadEligible = true) ∧
    ∀ source ∈ observedSources channelId config state, source.isReadEligible = true

/-- An identity that is not found again was not needed, or nothing is shown of the source. -/
def SourceRuntime.Dispensable (source : SourceRuntime) : Prop :=
  source.lastGood = none ∨ source.request.legacyProof = none

/-- The identity that a probe has found is the one of the Channel, or nothing is shown of the
source. -/
def Confirms (ownerChannelId : Text) (source : SourceRuntime) : ChannelSourceProbeOutput → Prop
  | .indexer _ _ => False
  | .sequencer _ (.error _) _ => source.Dispensable
  | .sequencer _ (.ok identity) head =>
    identity.channelId = ownerChannelId ∧ source.bindingState ≠ some .channelMismatch ∨
      source.lastGood = none ∧ ∃ failure, head = .error failure

/-- The condition on a step: a probe of a Sequencer confirms it. -/
def MonitorState.Confirmed (state : MonitorState) : MonitorEvent → Prop
  | .configure .. => True
  | .completed request output _ _ => ∀ channel source,
    state.currentSource request = some (channel, source) → source.request.role = .sequencer →
      Confirms channel.channelId source (normalizeProbeChannelId output)
  | .joinFailed request => ∀ channel source,
    state.currentSource request = some (channel, source) → source.request.role = .sequencer →
      source.Dispensable

/-! ### One source -/

section Source

variable {ownerChannelId : Text} {config : ChannelSourceConfig} {source : SourceRuntime}
  {output : ChannelSourceProbeOutput} {observedAtUnix latencyMillis : ℕ}

/-- A Sequencer has a binding state, and an observation only if it may be read; an Indexer is the
one of the configuration. -/
structure SourceRuntime.Sound (config : ChannelSourceConfig) (source : SourceRuntime) : Prop where
  bound : source.request.role = .sequencer → source.bindingState.isSome
  shown : source.request.role = .sequencer → source.lastGood.isSome → source.isReadEligible = true
  indexer : source.request.role = .indexer →
    ∃ indexer ∈ config.indexerSource, indexer.sourceId = source.sourceId

theorem SourceRuntime.Sound.of_indexer {source' : SourceRuntime} (h : source.Sound config)
    (hrole : source.request.role = .indexer) (hreq : source'.request = source.request) :
    source'.Sound config := by
  refine ⟨fun h' => ?_, fun h' => ?_, fun _ => ?_⟩
  · simp [hreq, hrole] at h'
  · simp [hreq, hrole] at h'
  · simpa [SourceRuntime.sourceId, hreq] using h.indexer hrole

theorem SourceRuntime.Sound.of_sequencer (hrole : source.request.role = .sequencer)
    (hbound : source.bindingState.isSome)
    (hshown : source.lastGood = none ∨
      source.bindingState.any ChannelSourceBindingState.isReadEligible = true) :
    source.Sound config := by
  refine ⟨fun _ => hbound, fun _ hsome => ?_, fun h => ?_⟩
  · rw [isReadEligible_eq hrole]
    exact hshown.resolve_left fun hn => by simp [hn] at hsome
  · simp [hrole] at h

theorem sound_sequencer (source : ConfiguredSequencerSource) :
    (SourceRuntime.sequencer config source).Sound config := by
  unfold SourceRuntime.sequencer
  split
  all_goals exact .of_sequencer rfl rfl (.inl rfl)

theorem sound_new : ∀ source ∈ (ChannelRuntime.new config).sources, source.Sound config := by
  intro _ hsrc
  have hm := (Table.of_mem_insertAll hsrc).resolve_left Table.not_mem_empty
  rcases List.mem_append.1 hm with hm | hm
  · obtain ⟨sequencer, -, rfl⟩ := List.mem_map.1 hm
    exact sound_sequencer sequencer
  · obtain ⟨indexer, hind, rfl⟩ := List.mem_map.1 hm
    exact ⟨nofun, nofun, fun _ => ⟨indexer, by simpa using hind, rfl⟩⟩

/-- The identity of a source gets lost. -/
theorem SourceRuntime.Sound.unbind (h : source.Sound config)
    (hkept : source.request.role = .sequencer → source.Dispensable) :
    source.unbind.Sound config := by
  cases hrole : source.request.role with
  | indexer => exact h.of_indexer hrole source.request_unbind
  | sequencer =>
    unfold SourceRuntime.unbind
    split_ifs with hlost
    · refine .of_sequencer hrole rfl (.inl ((hkept hrole).resolve_right fun hproof => ?_))
      simp [hproof] at hlost
    · exact h

/-- **A probe that confirms a source leaves it sound.** -/
theorem SourceRuntime.Sound.applyRegularOutput (h : source.Sound config)
    (hcon : source.request.role = .sequencer → Confirms ownerChannelId source output) :
    (applyRegularOutput ownerChannelId source output observedAtUnix latencyMillis).Sound
      config := by
  cases hrole : source.request.role with
  | indexer => exact h.of_indexer hrole request_applyRegularOutput
  | sequencer =>
    have hbound := h.bound hrole
    match output, hcon hrole with
    | .sequencer _ (.error _) _, hlost => exact h.unbind fun _ => hlost
    | .sequencer _ (.ok identity) head, .inl ⟨hown, hm⟩ =>
      -- the source may be read now, if it could not before
      obtain ⟨s, _⟩ := isSome_iff_exists.1 hbound
      refine .of_sequencer ((congrArg (·.role) request_applyRegularOutput).trans hrole) ?_ (.inr ?_)
      all_goals
        simp only [ChannelSources.applyRegularOutput, applyBindingState, hown, ne_eq,
          not_true_eq_false, if_false, hm, not_false_eq_true, true_and]
        split_ifs with hp
      · rfl
      · exact hbound
      · cases identity.basis <;> rfl
      · cases s <;> simp_all [ChannelSourceBindingState.isReadEligible]
    | .sequencer _ (.ok identity) _, .inr ⟨hn, failure, rfl⟩ =>
      refine .of_sequencer ((congrArg (·.role) request_applyRegularOutput).trans hrole) ?_ (.inl ?_)
      all_goals
        simp only [ChannelSources.applyRegularOutput, applyBindingState, completeObservation,
          none_or]
        split_ifs
      all_goals first | rfl | assumption

end Source

/-! ### The monitor -/

section Runs

variable {s : MonitorState} {event : MonitorEvent}

/-- A confirmed step leaves all sources sound. -/
theorem MonitorState.Each.sound_step (h : s.Each SourceRuntime.Sound)
    (hcon : s.Confirmed event) : (s.step event).Each SourceRuntime.Sound := by
  cases event with
  | configure =>
    exact h.configure (fun _ _ => id) fun _ _ => sound_new
  | completed =>
    refine h.updateSource (fun _ _ => request_applyRegularOutput) (fun _ _ _ _ _ => id)
      fun channel source hcur hsound => ?_
    exact hsound.applyRegularOutput (hcon channel source hcur)
  | joinFailed =>
    refine h.updateSource (fun _ => SourceRuntime.request_unbind) (fun _ _ _ _ _ => id)
      fun channel source hcur hsound => ?_
    exact hsound.unbind (hcon channel source hcur)

theorem of_mem_matchingObservationSet {channelId : Text} {config : ChannelSourceConfig}
    {set : ChannelRuntime} (h : set ∈ matchingObservationSet channelId config s) :
    set ∈ s.channels := by
  unfold matchingObservationSet at h
  split_ifs at h
  · cases h
  · exact (Table.find?_eq_some.1 (filter_eq_some_iff.1 h).1).1

/-- What is shown of sound sources. -/
theorem MonitorState.Each.showsEligible (h : s.Each SourceRuntime.Sound) : s.ShowsEligible := by
  intro _ config hs
  constructor
  · intro source hselected hhead
    simp only [selectedSource, bind_eq_bind, mem_def, bind_eq_some_iff] at hselected
    obtain ⟨sourceId, hid, set, hset, hsrc⟩ := hselected
    obtain ⟨hm, hsourceId⟩ := Table.find?_eq_some.1 hsrc
    have hsound := h set (of_mem_matchingObservationSet hset) source hm
    rw [hs set hset] at hsound
    -- the selected source is no Indexer
    have hrole : source.request.role = .sequencer := by
      cases hrole : source.request.role with
      | sequencer => rfl
      | indexer =>
        obtain ⟨indexer, hind, heq⟩ := hsound.indexer hrole
        obtain ⟨sequencer, hseq, heq'⟩ := config.selects sourceId hid
        exact absurd (heq'.trans (hsourceId.symm.trans heq.symm))
          (config.distinct sequencer hseq indexer hind)
    refine ⟨hrole, hsound.shown hrole ?_⟩
    simp only [selectedHead, selectedSource, bind_eq_bind, hid, hset, hsrc, bind_some] at hhead
    cases hgood : source.lastGood with
    | none => simp [hgood] at hhead
    | some _ => rfl
  · intro source ho
    obtain ⟨set, hset, hsrc⟩ := List.mem_flatMap.1 ho
    obtain ⟨hm, hshown⟩ := List.mem_filter.1 hsrc
    have hshown := of_decide_eq_true hshown
    exact (h set (of_mem_matchingObservationSet (by simpa using hset)) source hm).shown
      hshown.1 hshown.2

/-- **The head of a Zone comes from a Sequencer that may be read for its Channel**, and so do the
observed sources that are counted, after every run whose probes have confirmed what is shown. -/
theorem zone_heads_of_eligible_sources (events : List MonitorEvent)
    (hconfirmed : ∀ before event after, events = before ++ event :: after →
      (MonitorState.run before).Confirmed event) :
    (MonitorState.run events).ShowsEligible := by
  refine MonitorState.Each.showsEligible ?_
  refine MonitorState.run_induction (P := fun events => (MonitorState.run events).Each _)
    (fun _ hchannel => absurd hchannel Table.not_mem_empty) (fun _ _ h hcon => ?_) events hconfirmed
  rw [MonitorState.run_append]
  exact h.sound_step hcon

end Runs

namespace Sample

def channelId : Text := List.replicate 64 'a'

def otherChannelId : Text := List.replicate 64 'b'

/-- A Channel with one Sequencer, whose Channel is not known yet. -/
def config : ChannelSourceConfig where
  networkScope := .genesisId []
  channelId := channelId
  configRevision := 1
  sequencerSources := [⟨"s".toList, "t".toList, .pending⟩]
  selectedSequencerSourceId := some "s".toList
  indexerSource := none
  distinct := by simp
  selects := by simp
  attested := by simp [PersistedSequencerAttestation.channelId?]

def request : ChannelSourceProbeRequest :=
  ⟨.genesisId [], channelId, 1, "s".toList, .sequencer, "t".toList, none⟩

/-- The Sequencer is probed once, and reports a Channel and a head. -/
def probed (reported : Text) : List MonitorEvent :=
  [.configure (.genesisId []) true [config],
    .completed request (.sequencer (.ok ()) (.ok ⟨reported, .rpcReported⟩) (.ok ⟨5, [], none⟩)) 0 0]

def shown (bindingState : ChannelSourceBindingState) (reported : Text) : SourceRuntime :=
  ⟨request, some bindingState, some ⟨0, 0, true, none, some reported, some ⟨5, none, none, 0⟩⟩⟩

theorem selectedSource_probed : selectedSource channelId config (.run (probed channelId)) =
      some (shown .runtimeAttested channelId) := by
  decide +kernel

/-- A Sequencer that reports its own Channel is shown. -/
theorem zone_heads_of_eligible_sources_sample :
    (∃ source ∈ selectedSource channelId config (.run (probed channelId)),
      source.lastGood.isSome) ∧ (MonitorState.run (probed channelId)).ShowsEligible := by
  refine ⟨⟨_, selectedSource_probed, rfl⟩, zone_heads_of_eligible_sources _ ?_⟩
  intro before _ _ heq
  match before, heq with
  | [], heq =>
    cases heq
    trivial
  | [_], heq =>
    cases heq
    intro channel source hcurrent _
    have hchannel : channel.channelId = channelId :=
      (MonitorState.currentSource_eq_some hcurrent).2.1
    have hfresh : source.bindingState ≠ some .channelMismatch := by
      have hpending : ((MonitorState.run [.configure (.genesisId []) true [config]]).currentSource
          request).map (·.2.bindingState) = some (some .pending) := by decide +kernel
      rw [hcurrent] at hpending
      simp_all
    refine .inl ⟨?_, hfresh⟩
    rw [hchannel]
    decide +kernel
  | _ :: _ :: _, heq => simp [probed] at heq

/-- **A Zone is shown with the head of another Channel.** The Sequencer reports that it is not one
of this Channel; it is counted and its head is shown. -/
theorem head_of_another_channel : selectedSource channelId config (.run (probed otherChannelId)) =
        some (shown .channelMismatch otherChannelId) ∧
      selectedHead channelId config (.run (probed otherChannelId)) = some ⟨5, none, none, 0⟩ ∧
      observedSourceCount channelId config (.run (probed otherChannelId)) = 1 ∧
      ¬ (MonitorState.run (probed otherChannelId)).ShowsEligible := by
  have hsource : selectedSource channelId config (.run (probed otherChannelId)) =
      some (shown .channelMismatch otherChannelId) := by decide +kernel
  have hhead : selectedHead channelId config (.run (probed otherChannelId)) =
      some ⟨5, none, none, 0⟩ := by decide +kernel
  refine ⟨hsource, hhead, by decide +kernel, fun h => ?_⟩
  have hsame : ∀ set ∈ matchingObservationSet channelId config (.run (probed otherChannelId)),
      set.config = config := by decide +kernel
  have heligible := ((h channelId config hsame).1 _ hsource (by rw [hhead]; rfl)).2
  cases heligible

end Sample

end LogosInspector.ChannelSources
