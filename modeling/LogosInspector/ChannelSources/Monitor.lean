import LogosInspector.Catalog.Model

/-!
# The monitor of the sources of a Channel

A Channel has Sequencer sources and at most one Indexer source. The monitor probes each of them
again and again, and keeps two things of what a source has answered: the *binding state*, whether
the source may be read for the Channel, and the *last good* observation, with the head of its
chain. The two are written by different functions, of which only the first looks at the Channel
that the source reports. What is shown of a Zone is projected from the last good observations,
without a look at the binding state.

Scheduling, the samples of single blocks and the failures that are only displayed are left out:
they touch neither of the two.
-/

namespace LogosInspector.ChannelSources

open Table Option

open Catalog (NetworkScope)

/-! ### Configurations -/

inductive ChannelSourceRole
  | sequencer
  | indexer
deriving DecidableEq

/-- What is stored about the Channel of a Sequencer. -/
inductive PersistedSequencerAttestation
  | pending
  | persistedAttested (channelId : Text)
  | persistedEvidenceMatched (channelId : Text) (l2BlockId : ℕ) (l2HeaderHash l2Signature : Text)
deriving DecidableEq

def PersistedSequencerAttestation.channelId? : PersistedSequencerAttestation → Option Text
  | .pending => none
  | .persistedAttested channelId | .persistedEvidenceMatched channelId _ _ _ => some channelId

/-- A source; its target is given by its fingerprint. -/
structure ConfiguredSequencerSource where
  sourceId : Text
  target : Text
  channelAttestation : PersistedSequencerAttestation
deriving DecidableEq

structure ConfiguredIndexerSource where
  sourceId : Text
  target : Text
deriving DecidableEq

/-- The configuration of a Channel, as it is accepted: no id is used twice, the selected source is
one of the Sequencers, and what is stored about a Sequencer is about this Channel. -/
structure ChannelSourceConfig where
  networkScope : NetworkScope
  channelId : Text
  configRevision : ℕ
  sequencerSources : List ConfiguredSequencerSource
  selectedSequencerSourceId : Option Text
  indexerSource : Option ConfiguredIndexerSource
  distinct : ∀ sequencer ∈ sequencerSources, ∀ indexer ∈ indexerSource,
    sequencer.sourceId ≠ indexer.sourceId
  selects : ∀ id ∈ selectedSequencerSourceId, ∃ source ∈ sequencerSources, source.sourceId = id
  attested : ∀ source ∈ sequencerSources, ∀ id ∈ source.channelAttestation.channelId?,
    id = channelId
deriving DecidableEq

/-! ### Probes -/

inductive ChannelSourceFailureKind
  | timeout
  | unavailable
  | protocol
  | incomplete
  | unsupported
deriving DecidableEq

structure ChannelSourceProbeFailure where
  kind : ChannelSourceFailureKind
  diagnostic : String

/-- The persisted block that a Sequencer without a Channel id of its own has to reproduce. -/
structure SequencerPersistedLegacyProof where
  expectedChannelId : Text
  l2BlockId : ℕ
  l2HeaderHash : Text
  l2Signature : Text
deriving DecidableEq

structure ChannelSourceProbeRequest where
  networkScope : NetworkScope
  channelId : Text
  sourceConfigRevision : ℕ
  sourceId : Text
  role : ChannelSourceRole
  target : Text
  legacyProof : Option SequencerPersistedLegacyProof
deriving DecidableEq

inductive SequencerSourceIdentityBasis
  | rpcReported
  | finalizedL1EvidenceMatched (anchorBlockId : ℕ)

structure SequencerSourceIdentity where
  channelId : Text
  basis : SequencerSourceIdentityBasis

structure ChannelSourceBlock where
  blockId : ℕ
  headerHash : Text
  parentHash : Option Text

/-- What a part of a probe has found. -/
abbrev ChannelSourceProbeFact (α : Type) := Except ChannelSourceProbeFailure α

inductive ChannelSourceProbeOutput
  | sequencer (health : ChannelSourceProbeFact Unit)
      (channelId : ChannelSourceProbeFact SequencerSourceIdentity)
      (head : ChannelSourceProbeFact ChannelSourceBlock)
  | indexer (health : ChannelSourceProbeFact (Option Text))
      (head : ChannelSourceProbeFact (Option ChannelSourceBlock))

/-! ### What is kept of a source -/

inductive ChannelSourceBindingState
  | persistedAttested
  | pending
  | runtimeAttested
  | runtimeEvidenceMatched
  | channelMismatch
deriving DecidableEq

def ChannelSourceBindingState.isReadEligible : ChannelSourceBindingState → Bool
  | .persistedAttested | .runtimeAttested | .runtimeEvidenceMatched => true
  | .pending | .channelMismatch => false

structure ChannelSourceBlockObservation where
  blockId : ℕ
  headerHash : Option Text
  parentHash : Option Text
  observedAtUnix : ℕ
deriving DecidableEq

structure ChannelSourceLastGood where
  observedAtUnix : ℕ
  latencyMillis : ℕ
  healthOk : Bool
  indexerState : Option Text
  reportedChannelId : Option Text
  head : Option ChannelSourceBlockObservation
deriving DecidableEq

structure SourceRuntime where
  request : ChannelSourceProbeRequest
  bindingState : Option ChannelSourceBindingState
  lastGood : Option ChannelSourceLastGood
deriving DecidableEq

def SourceRuntime.sourceId (source : SourceRuntime) : Text := source.request.sourceId

def SourceRuntime.isReadEligible (source : SourceRuntime) : Bool :=
  match source.request.role with
  | .sequencer => source.bindingState.any ChannelSourceBindingState.isReadEligible
  | .indexer => true

def SourceRuntime.sequencer (config : ChannelSourceConfig) (source : ConfiguredSequencerSource) :
    SourceRuntime :=
  let (bindingState, legacyProof) := match source.channelAttestation with
    | .pending => (.pending, none)
    | .persistedAttested _ => (.persistedAttested, none)
    | .persistedEvidenceMatched channelId l2BlockId l2HeaderHash l2Signature =>
      (.pending, some ⟨channelId, l2BlockId, l2HeaderHash, l2Signature⟩)
  { request := ⟨config.networkScope, config.channelId, config.configRevision, source.sourceId,
      .sequencer, source.target, legacyProof⟩
    bindingState := some bindingState
    lastGood := none }

def SourceRuntime.indexer (config : ChannelSourceConfig) (source : ConfiguredIndexerSource) :
    SourceRuntime where
  request := ⟨config.networkScope, config.channelId, config.configRevision, source.sourceId,
    .indexer, source.target, none⟩
  bindingState := none
  lastGood := none

def normalizeChannelId (value : Text) : Except String Text :=
  let value := value.trim
  let value := ((value.dropStart? "0x".toList).or (value.dropStart? "0X".toList)).getD value
  if value.byteLength ≠ 64 ∨ value.all Text.isAsciiHexdigit = false then
    .error "Channel id must be 32-byte hexadecimal text"
  else .ok value.toAsciiLowercase

def normalizeIdentity (identity : SequencerSourceIdentity) :
    ChannelSourceProbeFact SequencerSourceIdentity :=
  match normalizeChannelId identity.channelId with
  | .ok channelId => .ok ⟨channelId, identity.basis⟩
  | .error _ => .error ⟨.protocol, "Sequencer returned an invalid Channel identity"⟩

def normalizeProbeChannelId : ChannelSourceProbeOutput → ChannelSourceProbeOutput
  | .sequencer health channelId head => .sequencer health (channelId.bind normalizeIdentity) head
  | output => output

/-- The identity has not been established by a probe. -/
def SourceRuntime.unbind (source : SourceRuntime) : SourceRuntime :=
  if source.request.legacyProof.isSome ∧ source.bindingState ≠ some .channelMismatch then
    { source with bindingState := some .pending }
  else source

def applyBindingState (ownerChannelId : Text) (source : SourceRuntime) :
    ChannelSourceProbeOutput → SourceRuntime
  | .indexer _ _ => source
  | .sequencer _ (.error _) _ => source.unbind
  | .sequencer _ (.ok identity) _ =>
    if identity.channelId ≠ ownerChannelId then
      { source with bindingState := some .channelMismatch }
    else if source.bindingState ≠ some .channelMismatch ∧
        (source.bindingState = some .pending ∨ source.request.legacyProof.isSome) then
      { source with bindingState := some (match identity.basis with
          | .rpcReported => .runtimeAttested
          | .finalizedL1EvidenceMatched _ => .runtimeEvidenceMatched) }
    else source

def blockObservation (block : ChannelSourceBlock) (observedAtUnix : ℕ) :
    ChannelSourceBlockObservation :=
  ⟨block.blockId, if block.headerHash = [] then none else some block.headerHash,
    block.parentHash, observedAtUnix⟩

def completeObservation (observedAtUnix latencyMillis : ℕ) :
    ChannelSourceProbeOutput → Option ChannelSourceLastGood
  | .sequencer health (.ok identity) (.ok head) => some
    { observedAtUnix, latencyMillis, healthOk := health.isOk, indexerState := none
      reportedChannelId := match identity.basis with
        | .rpcReported => some identity.channelId
        | .finalizedL1EvidenceMatched _ => none
      head := some (blockObservation head observedAtUnix) }
  | .indexer health (.ok head) => some
    { observedAtUnix, latencyMillis, healthOk := health.isOk
      indexerState := health.toOption.join, reportedChannelId := none
      head := head.map (blockObservation · observedAtUnix) }
  | _ => none

def applyRegularOutput (ownerChannelId : Text) (source : SourceRuntime)
    (output : ChannelSourceProbeOutput) (observedAtUnix latencyMillis : ℕ) : SourceRuntime :=
  let bound := applyBindingState ownerChannelId source output
  { bound with
    lastGood := (completeObservation observedAtUnix latencyMillis output).or bound.lastGood }

section Request

variable {ownerChannelId : Text} {source : SourceRuntime} {output : ChannelSourceProbeOutput}
  {observedAtUnix latencyMillis : ℕ}

theorem SourceRuntime.isReadEligible_eq (hrole : source.request.role = .sequencer) :
    source.isReadEligible = source.bindingState.any ChannelSourceBindingState.isReadEligible := by
  simp only [isReadEligible, hrole]

theorem SourceRuntime.request_unbind (source : SourceRuntime) :
    source.unbind.request = source.request := by
  unfold unbind
  split_ifs <;> rfl

theorem request_applyRegularOutput :
    (applyRegularOutput ownerChannelId source output observedAtUnix latencyMillis).request =
      source.request := by
  change (applyBindingState ownerChannelId source output).request = _
  unfold applyBindingState
  split
  · rfl
  · exact source.request_unbind
  · split_ifs <;> rfl

end Request

/-! ### The monitor -/

structure ChannelRuntime where
  config : ChannelSourceConfig
  sources : Table SourceRuntime.sourceId
deriving DecidableEq

def ChannelRuntime.channelId (channel : ChannelRuntime) : Text := channel.config.channelId

def ChannelRuntime.new (config : ChannelSourceConfig) : ChannelRuntime where
  config
  sources := Table.empty.insertAll (config.sequencerSources.map (SourceRuntime.sequencer config) ++
      config.indexerSource.toList.map (SourceRuntime.indexer config))

/-- The state of the monitor. It is published whenever it changes, so that it is also the snapshot
that others see. -/
structure MonitorState where
  networkScope : Option NetworkScope
  catalogVerified : Bool
  channels : Table ChannelRuntime.channelId

def MonitorState.initial : MonitorState := ⟨none, false, Table.empty⟩

/-- A new set of configurations. A Channel whose configuration is the same goes on; the others
start anew. -/
def configureMonitor (state : MonitorState) (networkScope : NetworkScope) (catalogVerified : Bool)
    (configs : List ChannelSourceConfig) : Except String MonitorState := do
  let kept := if state.networkScope = some networkScope then state.channels else Table.empty
  let configs := if catalogVerified then configs else []
  configs.forM fun config =>
    reject (config.networkScope ≠ networkScope)
      ("Channel " ++ config.channelId.toMessage ++ " belongs to another network scope")
  configs.forM fun config => reject (∃ runtime ∈ kept.find? config.channelId,
      runtime.config ≠ config ∧ runtime.config.configRevision = config.configRevision)
    ("Channel " ++ config.channelId.toMessage ++ " changed without a new configuration revision")
  return ⟨some networkScope, catalogVerified, Table.empty.insertAll (configs.map fun config =>
    ((kept.find? config.channelId).filter (·.config = config)).getD (.new config))⟩

/-- The source that a request was made for, if it is still configured as it was. -/
def MonitorState.currentSource (state : MonitorState) (request : ChannelSourceProbeRequest) :
    Option (ChannelRuntime × SourceRuntime) := do
  guard (state.networkScope = some request.networkScope)
  let channel ← state.channels.find? request.channelId
  guard (channel.config.configRevision = request.sourceConfigRevision ∧
    channel.config.networkScope = request.networkScope)
  let source ← channel.sources.find? request.sourceId
  guard (source.request.target = request.target)
  return (channel, source)

def MonitorState.updateSource (state : MonitorState) (request : ChannelSourceProbeRequest)
    (change : Text → SourceRuntime → SourceRuntime) : MonitorState :=
  match state.currentSource request with
  | none => state
  | some (channel, source) =>
    { state with channels := state.channels.insert { channel with
        sources := channel.sources.insert (change channel.config.channelId source) } }

inductive MonitorEvent
  | configure (networkScope : NetworkScope) (catalogVerified : Bool)
      (configs : List ChannelSourceConfig)
  | completed (request : ChannelSourceProbeRequest) (output : ChannelSourceProbeOutput)
      (observedAtUnix latencyMillis : ℕ)
  | joinFailed (request : ChannelSourceProbeRequest)

def MonitorState.step (state : MonitorState) : MonitorEvent → MonitorState
  | .configure networkScope catalogVerified configs =>
    (configureMonitor state networkScope catalogVerified configs).toOption.getD state
  | .completed request output observedAtUnix latencyMillis =>
    state.updateSource request fun ownerChannelId source => applyRegularOutput ownerChannelId
      source (normalizeProbeChannelId output) observedAtUnix latencyMillis
  | .joinFailed request => state.updateSource request fun _ source => source.unbind

def MonitorState.run (events : List MonitorEvent) : MonitorState :=
  events.foldl MonitorState.step .initial

theorem MonitorState.run_append {events : List MonitorEvent} {event : MonitorEvent} :
    run (events ++ [event]) = (run events).step event := by
  rw [run, List.foldl_append]
  rfl

/-- What holds at the start and is kept by every step that meets a condition holds after every run
whose steps meet it. -/
theorem MonitorState.run_induction {P : List MonitorEvent → Prop}
    {C : MonitorState → MonitorEvent → Prop} (hnil : P [])
    (hstep : ∀ events event, P events → C (.run events) event → P (events ++ [event]))
    (events : List MonitorEvent) (h : ∀ before event after, events = before ++ event :: after →
      C (.run before) event) : P events := by
  induction events using List.reverseRecOn with
  | nil => exact hnil
  | append_singleton events event ih =>
    refine hstep events event (ih fun before event' after heq => ?_) (h events event [] rfl)
    exact h before event' (after ++ [event]) (by simp [heq])

/-! ### What holds of every source -/

section Each

variable {s : MonitorState} {request : ChannelSourceProbeRequest} {networkScope : NetworkScope}
  {catalogVerified : Bool} {configs : List ChannelSourceConfig}
  {P Q : ChannelSourceConfig → SourceRuntime → Prop}

/-- All sources of all Channels have a property. -/
def MonitorState.Each (P : ChannelSourceConfig → SourceRuntime → Prop) (state : MonitorState) :
    Prop :=
  ∀ channel ∈ state.channels, ∀ source ∈ channel.sources, P channel.config source

theorem MonitorState.currentSource_eq_some {channel : ChannelRuntime} {source : SourceRuntime}
    (h : s.currentSource request = some (channel, source)) :
    channel ∈ s.channels ∧ channel.channelId = request.channelId ∧
      source ∈ channel.sources ∧ source.sourceId = request.sourceId ∧
      source.request.target = request.target := by
  simp only [currentSource, bind_eq_bind, bind_eq_some_iff, pure_def,
    Option.some.injEq, Prod.mk.injEq, guard_eq_some', find?_eq_some] at h
  obtain ⟨_, -, _, ⟨hchan, hid⟩, _, -, _, ⟨hsrc, hsourceId⟩, _, htar, rfl, rfl⟩ := h
  exact ⟨hchan, hid, hsrc, hsourceId, htar⟩

theorem MonitorState.Each.mono (h : s.Each P)
    (hkeep : ∀ config source, P config source → Q config source) : s.Each Q :=
  fun channel hchan source hsrc => hkeep _ _ (h channel hchan source hsrc)

/-- A change of the source that a request was made for. -/
theorem MonitorState.Each.updateSource {change : Text → SourceRuntime → SourceRuntime}
    (h : s.Each P) (hrequest : ∀ id source, (change id source).request = source.request)
    (hkeep : ∀ channel ∈ s.channels, ∀ source ∈ channel.sources,
      s.currentSource request ≠ some (channel, source) →
        P channel.config source → Q channel.config source)
    (hchange : ∀ channel source, s.currentSource request = some (channel, source) →
      P channel.config source → Q channel.config (change channel.channelId source)) :
    (s.updateSource request change).Each Q := by
  unfold MonitorState.updateSource
  cases hcur : s.currentSource request with
  | none =>
    intro channel hchannel source hsource
    exact hkeep channel hchannel source hsource (by simp [hcur]) (h channel hchannel source hsource)
  | some current =>
    obtain ⟨channel, source⟩ := current
    obtain ⟨hchannel, -, hsource, -, -⟩ := currentSource_eq_some hcur
    rintro channel' hchannel' source' hsource'
    rcases mem_insert.1 hchannel' with rfl | ⟨hchannel', hid⟩
    · rcases mem_insert.1 hsource' with rfl | ⟨hsource', hid⟩
      · exact hchange channel source hcur (h channel hchannel source hsource)
      · refine hkeep _ hchannel source' hsource' ?_ (h channel hchannel source' hsource')
        intro heq
        cases hcur.symm.trans heq
        exact hid (by rw [SourceRuntime.sourceId, SourceRuntime.sourceId, hrequest])
    · refine hkeep _ hchannel' source' hsource' ?_ (h channel' hchannel' source' hsource')
      intro heq
      cases hcur.symm.trans heq
      exact hid rfl

/-- After new configurations every Channel is one of them, in the network of the monitor; it goes on
or starts anew. -/
theorem configureMonitor_eq_ok {next : MonitorState}
    (h : configureMonitor s networkScope catalogVerified configs = .ok next) :
    next.networkScope = some networkScope ∧ ∀ channel ∈ next.channels, channel.config ∈ configs ∧
      channel.config.networkScope = networkScope ∧
      (channel ∈ s.channels ∨ channel = .new channel.config) := by
  simp only [configureMonitor, bind_eq_ok, pure_eq_ok] at h
  obtain ⟨_, hscopes, _, -, rfl⟩ := h
  refine ⟨rfl, fun channel hchannel => ?_⟩
  have hm := (of_mem_insertAll hchannel).resolve_left not_mem_empty
  obtain ⟨config, hconfig, rfl⟩ := List.mem_map.1 hm
  have hscope : config.networkScope = networkScope := by
    simpa using forM_eq_ok.1 hscopes config hconfig
  have hmem : config ∈ configs := by
    split_ifs at hconfig
    · exact hconfig
    · cases hconfig
  generalize hkept : Option.filter _ _ = kept
  cases kept with
  | none => exact ⟨hmem, hscope, .inr rfl⟩
  | some channel =>
    obtain ⟨hfound, heq⟩ := filter_eq_some_iff.1 hkept
    have heq : channel.config = config := by simpa using heq
    have hfound := (find?_eq_some.1 hfound).1
    rw [getD_some, heq]
    split_ifs at hfound
    · exact ⟨hmem, hscope, .inl hfound⟩
    · exact absurd hfound not_mem_empty

/-- New configurations. -/
theorem MonitorState.Each.configure (h : s.Each P)
    (hkeep : ∀ config source, P config source → Q config source)
    (hnew : ∀ config ∈ configs, ∀ source ∈ (ChannelRuntime.new config).sources, Q config source) :
    (s.step (.configure networkScope catalogVerified configs)).Each Q := by
  change MonitorState.Each Q (Option.getD (Except.toOption (configureMonitor ..)) _)
  cases hok : configureMonitor s networkScope catalogVerified configs with
  | error _ => exact h.mono hkeep
  | ok next =>
    intro channel hchannel source hsource
    obtain ⟨hconfig, -, hgoesOn | hanew⟩ := (configureMonitor_eq_ok hok).2 channel hchannel
    · exact hkeep _ _ (h channel hgoesOn source hsource)
    · rw [hanew] at hsource
      exact hnew _ hconfig source hsource

end Each

/-! ### What is shown of a Zone -/

def matchingObservationSet (channelId : Text) (config : ChannelSourceConfig)
    (state : MonitorState) : Option ChannelRuntime :=
  if state.catalogVerified = false ∨ state.networkScope ≠ some config.networkScope ∨
      config.channelId ≠ channelId then none
  else (state.channels.find? channelId).filter (·.config.configRevision = config.configRevision)

/-- The sources that are counted as observed. -/
def observedSources (channelId : Text) (config : ChannelSourceConfig) (state : MonitorState) :
    List SourceRuntime :=
  (matchingObservationSet channelId config state).toList.flatMap fun set =>
    set.sources.records.filter fun source =>
      source.request.role = .sequencer ∧ source.lastGood.isSome

def observedSourceCount (channelId : Text) (config : ChannelSourceConfig)
    (state : MonitorState) : ℕ := (observedSources channelId config state).length

/-- The source whose head is shown. -/
def selectedSource (channelId : Text) (config : ChannelSourceConfig) (state : MonitorState) :
    Option SourceRuntime := do
  let sourceId ← config.selectedSequencerSourceId
  let set ← matchingObservationSet channelId config state
  set.sources.find? sourceId

/-- The head that a Zone is shown with: `latest_block_id` and `latest_block_hash`. -/
def selectedHead (channelId : Text) (config : ChannelSourceConfig) (state : MonitorState) :
    Option ChannelSourceBlockObservation := do
  let source ← selectedSource channelId config state
  let lastGood ← source.lastGood
  lastGood.head

end LogosInspector.ChannelSources
