import LogosInspector.ChannelSources.Display

/-!
# When a Sequencer may be read

A Sequencer source is read for a Channel only if it is known to be one of that Channel. This is
known in three ways: it has been attested and stored, the Sequencer says so when it is probed, or it
still has the block by which it was matched with finalized L1 evidence. This file models the probe
that finds out (`probeSequencer`) and follows a source through the results of its probes while its
configuration stays in place (`SourceRuntime.history`). A source that may be read is one that has
been established in one of these ways; what rests on evidence does not outlive a probe that does not
find it again; and a source that has named another Channel is not read any more
(`sequencer_read_eligibility`). In the monitor every Sequencer has such a history (`run_observed`).
-/

namespace LogosInspector.ChannelSources

open List

/-! ### The probe of a Sequencer -/

/-- The blocks of a Sequencer: how they are read from bytes, what is in their headers, what their
hashes are computed from, and how hashes and signatures are written. -/
structure BlockExternals where
  Block : Type
  fromSlice : List UInt8 → Option Block
  blockId : Block → ℕ
  hash : Block → List UInt8
  signature : Block → List UInt8
  hashableBytes : Block → Option (List UInt8)
  sha256 : List UInt8 → List UInt8
  showHash : List UInt8 → Text
  showSignature : List UInt8 → Text

/-- What a Sequencer answers when it is asked for its head. -/
structure HeadReads where
  headId : ChannelSourceProbeFact ℕ
  block : ℕ → ChannelSourceProbeFact (Option ChannelSourceBlock)

/-- What the target of a probe answers. -/
structure SequencerReads where
  health : ChannelSourceProbeFact Unit
  channelId : ChannelSourceProbeFact Text
  blockBytes : ℕ → ChannelSourceProbeFact (Option (List UInt8))
  head : HeadReads
  retry : HeadReads

section Probe

variable (ext : BlockExternals)

/-- The bytes that are hashed before the content of a block. -/
def blockHashDomain : List UInt8 :=
  Text.bytes "/LEE/v0.3/Message/Block/".toList ++ List.replicate 8 0

def verifyBlockContentHash (block : ext.Block) : Except String Unit := do
  let encoded ← required (ext.hashableBytes block) "LEZ block content cannot be encoded"
  reject (ext.sha256 (blockHashDomain ++ encoded) ≠ ext.hash block)
    "LEZ block content hash does not match its header"

def decodeSequencerBlockBytes (bytes : List UInt8) : Except String ext.Block := do
  let block ← required (ext.fromSlice bytes) "Sequencer block has invalid layout"
  verifyBlockContentHash ext block
  return block

def decodeVerifiedLegacyBlock (bytes : List UInt8) : ChannelSourceProbeFact ext.Block :=
  (decodeSequencerBlockBytes ext bytes).mapError fun _ =>
    ⟨.protocol, "Sequencer evidence block layout or content hash is invalid"⟩

def validatePersistedLegacyProof (reads : SequencerReads)
    (legacyProof : SequencerPersistedLegacyProof) : ChannelSourceProbeFact Text := do
  let candidateBytes ← required (← reads.blockBytes legacyProof.l2BlockId)
    ⟨.incomplete, "Sequencer did not return its persisted finalized L1 evidence block"⟩
  let candidate ← decodeVerifiedLegacyBlock ext candidateBytes
  reject (ext.blockId candidate ≠ legacyProof.l2BlockId ∨
      ext.showHash (ext.hash candidate) ≠ legacyProof.l2HeaderHash ∨
      ext.showSignature (ext.signature candidate) ≠ legacyProof.l2Signature)
    ⟨.protocol, "Sequencer block does not match its persisted finalized L1 evidence"⟩
  return legacyProof.expectedChannelId

/-- Only a Sequencer that has no Channel id to report is asked for the persisted block. -/
def sequencerIdentity (reads : SequencerReads)
    (legacyProof : Option SequencerPersistedLegacyProof) :
    ChannelSourceProbeFact SequencerSourceIdentity :=
  match reads.channelId with
  | .ok channelId => .ok ⟨channelId, .rpcReported⟩
  | .error failure =>
    match legacyProof with
    | some legacyProof =>
      if failure.kind = .unsupported then do
        let channelId ← validatePersistedLegacyProof ext reads legacyProof
        return ⟨channelId, .finalizedL1EvidenceMatched legacyProof.l2BlockId⟩
      else .error failure
    | none => .error failure

def sequencerHead (reads : SequencerReads) : ChannelSourceProbeFact ChannelSourceBlock := do
  match ← reads.head.block (← reads.head.headId) with
  | some block => return block
  | none =>
    required (← reads.retry.block (← reads.retry.headId))
      ⟨.incomplete, "Sequencer head block remained unavailable after one retry"⟩

def validateSequencerIdentityHead (identity : ChannelSourceProbeFact SequencerSourceIdentity)
    (head : ChannelSourceProbeFact ChannelSourceBlock) :
    ChannelSourceProbeFact SequencerSourceIdentity := do
  let identity ← identity
  match identity.basis with
  | .rpcReported => return identity
  | .finalizedL1EvidenceMatched anchorBlockId =>
    let head ← head
    reject (head.blockId < anchorBlockId)
      ⟨.protocol, "Sequencer head is behind its finalized L1 evidence block"⟩
    return identity

/-- **The probe of a Sequencer**: `probe_source`, in the role of a Sequencer. -/
def probeSequencer (request : ChannelSourceProbeRequest) (reads : SequencerReads) :
    ChannelSourceProbeOutput :=
  let head := sequencerHead reads
  .sequencer reads.health
    (validateSequencerIdentityHead (sequencerIdentity ext reads request.legacyProof) head) head

def failedOutput (role : ChannelSourceRole) (failure : ChannelSourceProbeFailure) :
    ChannelSourceProbeOutput :=
  match role with
  | .sequencer => .sequencer (.error failure) (.error failure) (.error failure)
  | .indexer => .indexer (.error failure) (.error failure)

def timedOutOutput (role : ChannelSourceRole) : ChannelSourceProbeOutput :=
  failedOutput role ⟨.timeout, "source probe timed out"⟩

/-- **How a probe of a source can end.** One that is cancelled has no result. -/
inductive ProbeResult
  | answered (reads : SequencerReads) (observedAtUnix latencyMillis : ℕ)
  | timedOut (observedAtUnix latencyMillis : ℕ)
  | taskFailed

/-- The result of a probe reaches the source that it was made for. -/
def SourceRuntime.observe (source : SourceRuntime) : ProbeResult → SourceRuntime
  | .answered reads observedAtUnix latencyMillis =>
    applyRegularOutput source.request.channelId source
      (normalizeProbeChannelId (probeSequencer ext source.request reads)) observedAtUnix
      latencyMillis
  | .timedOut observedAtUnix latencyMillis =>
    applyRegularOutput source.request.channelId source
      (normalizeProbeChannelId (timedOutOutput source.request.role)) observedAtUnix latencyMillis
  | .taskFailed => source.unbind

/-- **A source after the results of its probes**, while its configuration stays in place. -/
def SourceRuntime.history (config : ChannelSourceConfig) (sequencer : ConfiguredSequencerSource)
    (results : List ProbeResult) : SourceRuntime :=
  results.foldl (SourceRuntime.observe ext) (.sequencer config sequencer)

/-! ### What a probe establishes -/

/-- A probe has reported a Channel. -/
def ProbeResult.Reports (channelId : Text) : ProbeResult → Prop
  | .answered reads _ _ => ∃ reported, reads.channelId = .ok reported ∧
    normalizeChannelId reported = .ok channelId
  | .timedOut .. | .taskFailed => False

/-- A probe has reproduced a block: one with this id, whose hash is that of its content, and with
this hash and signature. The head is not below it. -/
def ProbeResult.Reproduces (l2BlockId : ℕ) (l2HeaderHash l2Signature : Text) : ProbeResult → Prop
  | .answered reads _ _ =>
    (∃ failure, reads.channelId = .error failure ∧ failure.kind = .unsupported) ∧
    (∃ bytes block encoded, reads.blockBytes l2BlockId = .ok (some bytes) ∧
      ext.fromSlice bytes = some block ∧ ext.hashableBytes block = some encoded ∧
      ext.sha256 (blockHashDomain ++ encoded) = ext.hash block ∧
      ext.blockId block = l2BlockId ∧ ext.showHash (ext.hash block) = l2HeaderHash ∧
      ext.showSignature (ext.signature block) = l2Signature) ∧
    ∃ head, sequencerHead reads = .ok head ∧ l2BlockId ≤ head.blockId
  | .timedOut .. | .taskFailed => False

/-- The identity that a result comes with. -/
def ProbeResult.identity (request : ChannelSourceProbeRequest) :
    ProbeResult → Option SequencerSourceIdentity
  | .answered reads _ _ =>
    ((validateSequencerIdentityHead (sequencerIdentity ext reads request.legacyProof)
      (sequencerHead reads)).bind normalizeIdentity).toOption
  | .timedOut .. | .taskFailed => none

end Probe

variable {ext : BlockExternals} {result : ProbeResult}

variable {head : ChannelSourceProbeFact ChannelSourceBlock}

section Results

variable {request : ChannelSourceProbeRequest} {reads : SequencerReads}
  {found : SequencerSourceIdentity}

theorem normalizeIdentity_eq_ok {read : SequencerSourceIdentity} :
    normalizeIdentity read = .ok found ↔
      normalizeChannelId read.channelId = .ok found.channelId ∧ found.basis = read.basis := by
  unfold normalizeIdentity
  cases hn : normalizeChannelId read.channelId with
  | error _ => simp
  | ok _ =>
    constructor
    · intro h
      cases h
      exact ⟨rfl, rfl⟩
    · rintro ⟨h, hbasis⟩
      cases found
      cases h
      cases hbasis
      rfl

/-- What a Channel id is reported for is not looked up elsewhere. -/
theorem ProbeResult.Reports.identity {channelId : Text} (h : result.Reports channelId)
    (request : ChannelSourceProbeRequest) :
    result.identity ext request = some ⟨channelId, .rpcReported⟩ := by
  cases result with
  | answered =>
    obtain ⟨reported, hread, hn⟩ := h
    have hident : normalizeIdentity ⟨reported, .rpcReported⟩ = .ok ⟨channelId, .rpcReported⟩ :=
      normalizeIdentity_eq_ok.2 ⟨hn, rfl⟩
    simp only [ProbeResult.identity, sequencerIdentity, hread]
    exact congrArg Except.toOption hident
  | timedOut | taskFailed => exact h.elim

theorem validatePersistedLegacyProof_eq_ok {legacyProof : SequencerPersistedLegacyProof}
    {channelId : Text} (h : validatePersistedLegacyProof ext reads legacyProof = .ok channelId) :
    ∃ bytes block encoded, reads.blockBytes legacyProof.l2BlockId = .ok (some bytes) ∧
      ext.fromSlice bytes = some block ∧ ext.hashableBytes block = some encoded ∧
      ext.sha256 (blockHashDomain ++ encoded) = ext.hash block ∧
      ext.blockId block = legacyProof.l2BlockId ∧
      ext.showHash (ext.hash block) = legacyProof.l2HeaderHash ∧
      ext.showSignature (ext.signature block) = legacyProof.l2Signature := by
  simp only [validatePersistedLegacyProof, decodeVerifiedLegacyBlock, decodeSequencerBlockBytes,
    verifyBlockContentHash, bind_eq_ok, required_eq_ok, reject_eq_ok, mapError_eq_ok, pure_eq_ok,
    exists_unit, not_or, not_not, ne_eq] at h
  obtain ⟨_, hbytes, bytes, rfl, _, ⟨_, hblk, ⟨encoded, henc, hhash⟩, rfl⟩, ⟨hid, hh, hs⟩, -⟩ := h
  exact ⟨bytes, _, encoded, hbytes, hblk, henc, hhash, hid, hh, hs⟩

theorem sequencerIdentity_eq_ok (h : sequencerIdentity ext reads request.legacyProof = .ok found) :
    reads.channelId = .ok found.channelId ∨ ∃ legacyProof ∈ request.legacyProof,
        (∃ failure, reads.channelId = .error failure ∧ failure.kind = .unsupported) ∧
        validatePersistedLegacyProof ext reads legacyProof = .ok found.channelId ∧
        found.basis = .finalizedL1EvidenceMatched legacyProof.l2BlockId := by
  unfold sequencerIdentity at h
  cases hread : reads.channelId with
  | ok _ =>
    rw [hread] at h
    cases h
    exact .inl rfl
  | error failure =>
    cases hproof : request.legacyProof with
    | none => simp [hread, hproof] at h
    | some legacyProof =>
      rw [hread, hproof] at h
      dsimp only at h
      split_ifs at h with hu
      simp only [bind_eq_ok, pure_eq_ok] at h
      obtain ⟨_, hv, rfl⟩ := h
      exact .inr ⟨legacyProof, rfl, ⟨failure, rfl, hu⟩, hv, rfl⟩

theorem validateSequencerIdentityHead_eq_ok {read : ChannelSourceProbeFact SequencerSourceIdentity}
    (h : validateSequencerIdentityHead read head = .ok found) :
    read = .ok found ∧ ∀ anchorBlockId, found.basis = .finalizedL1EvidenceMatched anchorBlockId →
      ∃ block, head = .ok block ∧ anchorBlockId ≤ block.blockId := by
  obtain ⟨_, rfl, hc⟩ := bind_eq_ok.1 h
  split at hc
  · next hbasis =>
    cases hc
    exact ⟨rfl, fun _ ho => by simp [hbasis] at ho⟩
  · next anchor hbasis =>
    simp only [bind_eq_ok, pure_eq_ok, reject_eq_ok, exists_unit, not_lt] at hc
    obtain ⟨block, hblk, ha, rfl⟩ := hc
    refine ⟨rfl, fun _ ho => ?_⟩
    cases hbasis.symm.trans ho
    exact ⟨block, hblk, ha⟩

/-- **What an identity rests on**: the Channel was reported, or the persisted block reproduced. -/
theorem ProbeResult.of_identity (h : result.identity ext request = some found) :
    result.Reports found.channelId ∨ ∃ legacyProof ∈ request.legacyProof,
      result.Reproduces ext legacyProof.l2BlockId legacyProof.l2HeaderHash
        legacyProof.l2Signature := by
  cases result with
  | timedOut | taskFailed => cases h
  | answered =>
    obtain ⟨_, hv, hn⟩ := bind_eq_ok.1 (toOption_eq_some.1 h)
    obtain ⟨hident, hhead⟩ := validateSequencerIdentityHead_eq_ok hv
    rcases sequencerIdentity_eq_ok hident with
      hr | ⟨legacyProof, hproof, hu, hblk, hbasis⟩
    · exact .inl ⟨_, hr, (normalizeIdentity_eq_ok.1 hn).1⟩
    · exact .inr ⟨legacyProof, hproof, hu, validatePersistedLegacyProof_eq_ok hblk, hhead _ hbasis⟩

end Results

/-! ### What a result does to a source -/

variable {source : SourceRuntime}

section Source

def SequencerSourceIdentityBasis.bindingState : SequencerSourceIdentityBasis →
    ChannelSourceBindingState
  | .rpcReported => .runtimeAttested
  | .finalizedL1EvidenceMatched _ => .runtimeEvidenceMatched

theorem SourceRuntime.request_observe : (source.observe ext result).request = source.request := by
  cases result with
  | answered | timedOut => exact request_applyRegularOutput
  | taskFailed => exact source.request_unbind

theorem applyBindingState_ok {ownerChannelId : Text} {health : ChannelSourceProbeFact Unit}
    {identity : SequencerSourceIdentity} :
    identity.channelId ≠ ownerChannelId ∧ (applyBindingState ownerChannelId source
        (.sequencer health (.ok identity) head)).bindingState = some .channelMismatch ∨
      identity.channelId = ownerChannelId ∧ ((applyBindingState ownerChannelId source
            (.sequencer health (.ok identity) head)).bindingState = source.bindingState ∨
          source.bindingState ≠ some .channelMismatch ∧ (applyBindingState ownerChannelId source
              (.sequencer health (.ok identity) head)).bindingState =
              some identity.basis.bindingState) := by
  simp only [applyBindingState]
  by_cases ho : identity.channelId = ownerChannelId
  · refine .inr ⟨ho, ?_⟩
    rw [if_neg (not_not.2 ho)]
    split_ifs with hr
    · refine .inr ⟨hr.1, ?_⟩
      cases identity.basis <;> rfl
    · exact .inl rfl
  · rw [if_pos ho]
    exact .inl ⟨ho, rfl⟩

/-- **What a result does to the binding state.** -/
theorem SourceRuntime.observe_cases (ext : BlockExternals) (result : ProbeResult)
    (hrole : source.request.role = .sequencer) :
    (result.identity ext source.request = none ∧
      (source.observe ext result).bindingState = source.unbind.bindingState) ∨
    ∃ identity, result.identity ext source.request = some identity ∧
      (identity.channelId ≠ source.request.channelId ∧
          (source.observe ext result).bindingState = some .channelMismatch ∨
        identity.channelId = source.request.channelId ∧
          ((source.observe ext result).bindingState = source.bindingState ∨
            source.bindingState ≠ some .channelMismatch ∧
              (source.observe ext result).bindingState = some identity.basis.bindingState)) := by
  cases result with
  | taskFailed => exact .inl ⟨rfl, rfl⟩
  | timedOut =>
    refine .inl ⟨rfl, ?_⟩
    simp only [observe, timedOutOutput, failedOutput, hrole]
    rfl
  | answered =>
    simp only [observe, probeSequencer, normalizeProbeChannelId, ProbeResult.identity]
    cases Except.bind _ normalizeIdentity with
    | error _ => exact .inl ⟨rfl, rfl⟩
    | ok identity => exact .inr ⟨identity, rfl, applyBindingState_ok⟩

variable (hrole : source.request.role = .sequencer)

include hrole

/-- **A source becomes readable by a result that comes with the identity of its Channel.** -/
theorem SourceRuntime.of_isReadEligible_observe
    (h : (source.observe ext result).isReadEligible = true) :
    source.isReadEligible = true ∨ ∃ found, result.identity ext source.request = some found ∧
      found.channelId = source.request.channelId := by
  rw [isReadEligible_eq ((congrArg (·.role) request_observe).trans hrole)] at h
  rw [isReadEligible_eq hrole]
  rcases observe_cases ext result hrole with
    ⟨-, hstate⟩ | ⟨found, hfound, ⟨-, hstate⟩ | ⟨hown, hstate⟩⟩
  · -- what is lost is not gained
    rw [hstate] at h
    unfold unbind at h
    split_ifs at h
    · cases h
    · exact .inl h
  · rw [hstate] at h
    cases h
  · exact .inr ⟨found, hfound, hown⟩

/-- **A source that rests on evidence does not outlive a result without its identity.** -/
theorem SourceRuntime.isReadEligible_observe_of_evidence
    (hproof : source.request.legacyProof.isSome = true)
    (hlost : ∀ found, result.identity ext source.request = some found →
      found.channelId ≠ source.request.channelId) :
    (source.observe ext result).isReadEligible = false := by
  rw [isReadEligible_eq ((congrArg (·.role) request_observe).trans hrole)]
  rcases observe_cases ext result hrole with
    ⟨-, hstate⟩ | ⟨found, hfound, ⟨-, hstate⟩ | ⟨hown, -⟩⟩
  · rw [hstate]
    unfold unbind
    split_ifs with hbound
    · rfl
    · -- it could not be read before
      rw [show source.bindingState = some .channelMismatch from
        not_not.1 fun hne => hbound ⟨hproof, hne⟩]
      rfl
  · rw [hstate]
    rfl
  · exact absurd hown (hlost found hfound)

/-- **A source that has named another Channel stays one of another Channel.** -/
theorem SourceRuntime.observe_mismatch (h : source.bindingState = some .channelMismatch ∨
      ∃ other, other ≠ source.request.channelId ∧ result.Reports other) :
    (source.observe ext result).bindingState = some .channelMismatch := by
  rcases observe_cases ext result hrole with
    ⟨hn, hs⟩ | ⟨_, hfound, ⟨-, hs⟩ | ⟨hown, hs⟩⟩
  · rw [hs]
    rcases h with hm | ⟨other, -, hr⟩
    · unfold unbind
      rw [if_neg fun hbound => hbound.2 hm, hm]
    · cases hn.symm.trans (hr.identity source.request)
  · exact hs
  · rcases h with hm | ⟨_, hne, hr⟩
    · rcases hs with hs | ⟨hfresh, -⟩
      · rw [hs, hm]
      · exact absurd hm hfresh
    · cases hfound.symm.trans (hr.identity source.request)
      exact absurd hown hne

/-- A source is matched with persisted evidence only. -/
theorem SourceRuntime.of_observe_evidence
    (h : (source.observe ext result).bindingState = some .runtimeEvidenceMatched) :
    source.bindingState = some .runtimeEvidenceMatched ∨
      source.request.legacyProof.isSome = true := by
  rcases observe_cases ext result hrole with
    ⟨-, hstate⟩ | ⟨_, hfound, ⟨-, hstate⟩ | ⟨-, hstate | ⟨-, hstate⟩⟩⟩
  all_goals rw [hstate] at h
  · unfold unbind at h
    split_ifs at h
    · cases h
    · exact .inl h
  · cases h
  · exact .inl h
  · rcases ProbeResult.of_identity hfound with hr | ⟨_, hproof, -⟩
    · rw [Option.some.inj (hfound.symm.trans (hr.identity source.request))] at h
      cases h
    · exact .inr (Option.isSome_of_mem hproof)

end Source

/-! ### Histories -/

variable {config : ChannelSourceConfig}

section History

open SourceRuntime (history)

variable {sequencer : ConfiguredSequencerSource} {results : List ProbeResult}

theorem history_append : history ext config sequencer (results ++ [result]) =
    (history ext config sequencer results).observe ext result := by
  unfold history
  rw [foldl_append, foldl_cons, foldl_nil]

theorem request_history : (history ext config sequencer results).request =
    (SourceRuntime.sequencer config sequencer).request := by
  induction results using List.reverseRecOn with
  | nil => rfl
  | append_singleton _ _ ih =>
    rw [history_append]
    exact SourceRuntime.request_observe.trans ih

theorem role_history :
    (history ext config sequencer results).request.role = .sequencer := by
  rw [request_history]
  rfl

theorem channelId_history :
    (history ext config sequencer results).request.channelId = config.channelId := by
  rw [request_history]
  rfl

/-- The evidence that is stored for a source. -/
def ConfiguredSequencerSource.Reproduced (ext : BlockExternals) (channelId : Text)
    (sequencer : ConfiguredSequencerSource) (result : ProbeResult) : Prop :=
  ∃ l2BlockId l2HeaderHash l2Signature, sequencer.channelAttestation =
      .persistedEvidenceMatched channelId l2BlockId l2HeaderHash l2Signature ∧
    result.Reproduces ext l2BlockId l2HeaderHash l2Signature

/-- A probe establishes that a source is one of its Channel. -/
def ConfiguredSequencerSource.Established (ext : BlockExternals) (channelId : Text)
    (sequencer : ConfiguredSequencerSource) (result : ProbeResult) : Prop :=
  result.Reports channelId ∨ sequencer.Reproduced ext channelId result

/-- The identity of a source is found by a probe that establishes it. -/
theorem established_of_identity (hm : sequencer ∈ config.sequencerSources)
    {found : SequencerSourceIdentity}
    (hfound : result.identity ext (SourceRuntime.sequencer config sequencer).request = some found)
    (hown : found.channelId = config.channelId) :
    sequencer.Established ext config.channelId result := by
  rcases ProbeResult.of_identity hfound with hr | ⟨_, hproof, hreproduces⟩
  · exact .inl (hown ▸ hr)
  · have ha := config.attested sequencer hm
    cases hstore : sequencer.channelAttestation with
    | pending | persistedAttested => simp [SourceRuntime.sequencer, hstore] at hproof
    | persistedEvidenceMatched channelId =>
      simp only [SourceRuntime.sequencer, hstore, Option.mem_def, Option.some.injEq] at hproof
      subst hproof
      rw [hstore] at ha
      exact .inr ⟨_, _, _, hstore ▸ ha channelId rfl ▸ rfl, hreproduces⟩

/-- **What a source that may be read rests on.** -/
theorem of_isReadEligible_history (hm : sequencer ∈ config.sequencerSources)
    (h : (history ext config sequencer results).isReadEligible = true) :
    sequencer.channelAttestation = .persistedAttested config.channelId ∨
      ∃ result ∈ results, sequencer.Established ext config.channelId result := by
  induction results using List.reverseRecOn with
  | nil =>
    have ha := config.attested sequencer hm
    cases hstore : sequencer.channelAttestation with
    | pending | persistedEvidenceMatched =>
      simp [history, SourceRuntime.sequencer, SourceRuntime.isReadEligible, hstore,
        ChannelSourceBindingState.isReadEligible] at h
    | persistedAttested channelId =>
      rw [hstore] at ha
      exact .inl (congrArg _ (ha channelId rfl))
  | append_singleton _ result ih =>
    rw [history_append] at h
    rcases SourceRuntime.of_isReadEligible_observe role_history h with h | ⟨_, hfound, hown⟩
    · refine (ih h).imp_right ?_
      rintro ⟨earlier, he, hestablished⟩
      exact ⟨earlier, mem_append_left _ he, hestablished⟩
    · rw [request_history] at hfound
      exact .inr ⟨result, by simp, established_of_identity hm hfound (hown.trans channelId_history)⟩

theorem history_mismatch (h : ∃ result ∈ results, ∃ other, other ≠ config.channelId ∧
    result.Reports other) : (history ext config sequencer results).bindingState =
      some .channelMismatch := by
  induction results using List.reverseRecOn with
  | nil => simp at h
  | append_singleton _ _ ih =>
    rw [history_append]
    refine SourceRuntime.observe_mismatch role_history ?_
    obtain ⟨earlier, he, other, ho⟩ := h
    rcases mem_append.1 he with he | hlast
    · exact .inl (ih ⟨earlier, he, other, ho⟩)
    · cases mem_singleton.1 hlast
      exact .inr ⟨other, channelId_history ▸ ho.1, ho.2⟩

/-- Only a source with persisted evidence is matched with it. -/
theorem isSome_legacyProof_history
    (h : (history ext config sequencer results).bindingState = some .runtimeEvidenceMatched) :
    (SourceRuntime.sequencer config sequencer).request.legacyProof.isSome = true := by
  induction results using List.reverseRecOn with
  | nil =>
    unfold history SourceRuntime.sequencer at h
    cases hstore : sequencer.channelAttestation <;> simp [hstore] at h
  | append_singleton _ _ ih =>
    rw [history_append] at h
    rcases SourceRuntime.of_observe_evidence role_history h with h | h
    · exact ih h
    · rwa [request_history] at h

/-- **When a Sequencer may be read.** Whatever the results of the probes of a source are while its
configuration stays in place:

* it may be read only if it was attested for this Channel when it was stored, or a probe of its
  target has reported this Channel, or a probe has reproduced the persisted block, with a head not
  below it;
* if this rests on evidence, it may not be read after the next result that does not establish its
  identity again;
* once a probe has reported another Channel, it may not be read. -/
theorem sequencer_read_eligibility (ext : BlockExternals) (config : ChannelSourceConfig)
    (sequencer : ConfiguredSequencerSource) (hmem : sequencer ∈ config.sequencerSources)
    (results : List ProbeResult) :
    ((history ext config sequencer results).isReadEligible = true →
      sequencer.channelAttestation = .persistedAttested config.channelId ∨
        ∃ result ∈ results, sequencer.Established ext config.channelId result) ∧
    ((history ext config sequencer results).bindingState = some .runtimeEvidenceMatched →
      ∀ result, ¬ sequencer.Established ext config.channelId result →
        (history ext config sequencer (results ++ [result])).isReadEligible = false) ∧
    ((∃ result ∈ results, ∃ other, other ≠ config.channelId ∧ result.Reports other) →
      (history ext config sequencer results).isReadEligible = false) := by
  refine ⟨of_isReadEligible_history hmem, fun hevidence _ hlost => ?_, fun hother => ?_⟩
  · rw [history_append]
    refine SourceRuntime.isReadEligible_observe_of_evidence role_history ?_ fun _ hfound hown => ?_
    · rw [request_history]
      exact isSome_legacyProof_history hevidence
    · rw [request_history] at hfound
      exact hlost (established_of_identity hmem hfound (hown.trans channelId_history))
  · rw [SourceRuntime.isReadEligible_eq role_history, history_mismatch hother]
    rfl

end History

/-! ### The monitor -/

/-- The result of a probe reaches the monitor. -/
def ProbeResult.event (ext : BlockExternals) (request : ChannelSourceProbeRequest) :
    ProbeResult → MonitorEvent
  | .answered reads observedAtUnix latencyMillis =>
    .completed request (probeSequencer ext request reads) observedAtUnix latencyMillis
  | .timedOut observedAtUnix latencyMillis =>
    .completed request (timedOutOutput request.role) observedAtUnix latencyMillis
  | .taskFailed => .joinFailed request

/-- A request agrees with another one in all that the monitor compares. -/
def ChannelSourceProbeRequest.Agrees (made request : ChannelSourceProbeRequest) : Prop :=
  made.networkScope = request.networkScope ∧ made.channelId = request.channelId ∧
    made.sourceConfigRevision = request.sourceConfigRevision ∧
    made.sourceId = request.sourceId ∧ made.target = request.target

instance {made request : ChannelSourceProbeRequest} : Decidable (made.Agrees request) :=
  inferInstanceAs (Decidable (_ ∧ _))

/-- An event is about the source of a request. -/
def MonitorEvent.addresses (request : ChannelSourceProbeRequest) : MonitorEvent → Bool
  | .configure .. => false
  | .completed made _ _ _ | .joinFailed made => made.Agrees request

/-- What the monitor gets about a Sequencer is the result of a probe that was made for it. -/
def MonitorState.Probed (ext : BlockExternals) (state : MonitorState) (event : MonitorEvent) :
    Prop :=
  state.Each fun _ source => source.request.role = .sequencer →
    event.addresses source.request → ∃ result, event = ProbeResult.event ext source.request result

/-- **What has been delivered** about the source of a request since its Channel was configured. -/
def DeliveredSince (config : ChannelSourceConfig) (request : ChannelSourceProbeRequest)
    (events delivered : List MonitorEvent) : Prop :=
  ∃ earlier networkScope catalogVerified configs later, config ∈ configs ∧
    events = earlier ++ .configure networkScope catalogVerified configs :: later ∧
    delivered = later.filter (MonitorEvent.addresses request)

/-- A Sequencer of a configuration, with the results of its probes that have been delivered. -/
def SourceRuntime.Observed (ext : BlockExternals) (events : List MonitorEvent)
    (config : ChannelSourceConfig) (source : SourceRuntime) : Prop :=
  source.request.role = .sequencer → ∃ sequencer ∈ config.sequencerSources, ∃ results,
    source = SourceRuntime.history ext config sequencer results ∧
    DeliveredSince config source.request events
      (results.map (ProbeResult.event ext source.request))

/-- The configurations of the monitor are of its network. -/
def MonitorState.Placed (state : MonitorState) : Prop :=
  ∀ channel ∈ state.channels, state.networkScope = some channel.config.networkScope

theorem MonitorState.Placed.updateSource {s : MonitorState} (h : s.Placed)
    {change : Text → SourceRuntime → SourceRuntime} : (s.updateSource request change).Placed := by
  unfold MonitorState.updateSource
  cases hcur : s.currentSource request with
  | none => exact h
  | some current =>
    intro channel hchannel
    rcases Table.mem_insert.1 hchannel with rfl | ⟨hchannel, -⟩
    · exact h current.1 (currentSource_eq_some hcur).1
    · exact h channel hchannel

theorem MonitorState.placed_run (events : List MonitorEvent) : (run events).Placed := by
  refine run_induction (P := fun events => (run events).Placed) (C := fun _ _ => True)
    (fun _ hchannel => absurd hchannel Table.not_mem_empty) (fun events event ih _ => ?_) events
    fun _ _ _ _ => trivial
  rw [run_append]
  cases event with
  | configure networkScope catalogVerified configs =>
    change Placed (Option.getD (Except.toOption (configureMonitor ..)) _)
    cases hok : configureMonitor (run events) networkScope catalogVerified configs with
    | error _ => exact ih
    | ok next =>
      obtain ⟨hscope, hchannels⟩ := configureMonitor_eq_ok hok
      intro channel hchannel
      exact hscope.trans (congrArg some (hchannels channel hchannel).2.1.symm)
  | completed => exact ih.updateSource
  | joinFailed => exact ih.updateSource

section Observed

open SourceRuntime (Observed)

open MonitorState (run)

variable {events delivered : List MonitorEvent} {event : MonitorEvent}

theorem DeliveredSince.append (h : DeliveredSince config request events delivered)
    (event : MonitorEvent) :
    DeliveredSince config request (events ++ [event])
      (delivered ++ [event].filter (MonitorEvent.addresses request)) := by
  obtain ⟨earlier, networkScope, catalogVerified, configs, later, hconfig, rfl, rfl⟩ := h
  exact ⟨earlier, networkScope, catalogVerified, configs, later ++ [event], hconfig, by simp,
    (filter_append ..).symm⟩

theorem observed_new {networkScope : Catalog.NetworkScope} {catalogVerified : Bool}
    {configs : List ChannelSourceConfig} (hconfig : config ∈ configs) :
    ∀ source ∈ (ChannelRuntime.new config).sources, source.Observed ext
      (events ++ [.configure networkScope catalogVerified configs]) config := by
  intro _ hsource hrole
  have hm := (Table.of_mem_insertAll hsource).resolve_left Table.not_mem_empty
  rcases mem_append.1 hm with hm | hm
  · obtain ⟨sequencer, hseq, rfl⟩ := mem_map.1 hm
    exact ⟨sequencer, hseq, [], rfl, events, _, _, configs, [], hconfig, rfl, rfl⟩
  · obtain ⟨_, -, rfl⟩ := mem_map.1 hm
    cases hrole

/-- A Sequencer is the current source of just the requests that agree with its own. -/
theorem SourceRuntime.Observed.currentSource_iff {s : MonitorState} {channel : ChannelRuntime}
    (h : source.Observed ext events channel.config) (hrole : source.request.role = .sequencer)
    (hplaced : s.Placed) (hchannel : channel ∈ s.channels) (hsource : source ∈ channel.sources)
    {made : ChannelSourceProbeRequest} :
    s.currentSource made = some (channel, source) ↔ made.Agrees source.request := by
  obtain ⟨sequencer, -, results, heq, -⟩ := h hrole
  have hrequest : source.request = (SourceRuntime.sequencer channel.config sequencer).request := by
    rw [heq, request_history]
  simp only [MonitorState.currentSource, Option.bind_eq_bind, Option.bind_eq_some_iff,
    Option.pure_def, Option.some.injEq, Prod.mk.injEq, Option.guard_eq_some',
    Table.find?_eq_some, hplaced channel hchannel, ChannelSourceProbeRequest.Agrees]
  constructor
  · rintro ⟨_, hscope, _, ⟨-, hid⟩, _, ⟨hrevision, -⟩, _, ⟨-, hsourceId⟩, _, htarget, rfl, rfl⟩
    refine ⟨?_, ?_, ?_, hsourceId.symm, htarget.symm⟩ <;> rw [hrequest]
    exacts [hscope.symm, hid.symm, hrevision.symm]
  · rintro ⟨hscope, hid, hrevision, hsourceId, htarget⟩
    rw [hrequest] at hscope hid hrevision
    exact ⟨(), hscope.symm, channel, ⟨hchannel, hid.symm⟩, (), ⟨hrevision.symm, hscope.symm⟩,
      source, ⟨hsource, hsourceId.symm⟩, (), htarget.symm, rfl, rfl⟩

/-- An event about another source. -/
theorem SourceRuntime.Observed.skip (h : source.Observed ext events config)
    (hskip : source.request.role = .sequencer → event.addresses source.request = false) :
    source.Observed ext (events ++ [event]) config := by
  intro hrole
  obtain ⟨sequencer, hm, results, heq, hdelivered⟩ := h hrole
  refine ⟨sequencer, hm, results, heq, ?_⟩
  simpa [hskip hrole] using hdelivered.append event

/-- An event about one source is its next result, and the others do not see it. -/
theorem MonitorState.Each.observed_updateSource {s : MonitorState}
    (h : s.Each (Observed ext events)) (hplaced : s.Placed)
    (hprobed : s.Probed ext event) {made : ChannelSourceProbeRequest}
    (hmade : ∀ request, event.addresses request = decide (made.Agrees request))
    {change : Text → SourceRuntime → SourceRuntime}
    (hrequest : ∀ id source, (change id source).request = source.request)
    (hchange : ∀ source result, event = ProbeResult.event ext source.request result →
      change source.request.channelId source = source.observe ext result) :
    (s.updateSource made change).Each (Observed ext (events ++ [event])) := by
  refine h.updateSource hrequest (fun channel hchannel source hsource hother hobserved =>
    hobserved.skip fun hrole => ?_) fun channel source hcurrent hobserved hrole => ?_
  · rw [hmade, decide_eq_false_iff_not]
    exact fun hagrees =>
      hother ((hobserved.currentSource_iff hrole hplaced hchannel hsource).2 hagrees)
  · rw [hrequest] at hrole ⊢
    obtain ⟨hchannel, -, hsource, -⟩ := currentSource_eq_some hcurrent
    have hown : event.addresses source.request = true := by
      rw [hmade, decide_eq_true_iff]
      exact (hobserved.currentSource_iff hrole hplaced hchannel hsource).1 hcurrent
    obtain ⟨result, hevent⟩ := hprobed channel hchannel source hsource hrole hown
    obtain ⟨sequencer, hm, results, rfl, hdelivered⟩ := hobserved hrole
    refine ⟨sequencer, hm, results ++ [result], ?_, ?_⟩
    · rw [history_append, ← hchange _ result hevent, channelId_history]
      rfl
    · rw [map_append, map_singleton, ← hevent]
      simpa [hown] using hdelivered.append event

end Observed

namespace Sample

/-- There is one block, with id 5. -/
def blocks : BlockExternals :=
  ⟨Unit, fun _ => some (), fun _ => 5, fun _ => [], fun _ => [], fun _ => some [], fun _ => [],
    fun _ => [], fun _ => []⟩

/-- A Sequencer that was matched with evidence. -/
def matched : ConfiguredSequencerSource :=
  ⟨"s".toList, "t".toList, .persistedEvidenceMatched channelId 5 [] []⟩

def matchedConfig : ChannelSourceConfig where
  networkScope := .genesisId []
  channelId := channelId
  configRevision := 1
  sequencerSources := [matched]
  selectedSequencerSourceId := none
  indexerSource := none
  distinct := by simp
  selects := by simp
  attested := by simp [matched, PersistedSequencerAttestation.channelId?]

def headReads : HeadReads := ⟨.ok 7, fun id => .ok (some ⟨id, [], none⟩)⟩

/-- The Sequencer has no Channel id to report, and still has the block. -/
def reproduced : ProbeResult :=
  .answered ⟨.ok (), .error ⟨.unsupported, ""⟩, fun _ => .ok (some []), headReads, headReads⟩ 0 0

/-- The Sequencer is configured, and its block is reproduced. -/
def probedEvents : List MonitorEvent :=
  [.configure (.genesisId []) true [matchedConfig],
    reproduced.event blocks (SourceRuntime.sequencer matchedConfig matched).request]

/-- A Sequencer may be read once it has reproduced its block, until a probe fails. -/
theorem sequencer_read_eligibility_matched :
    (∃ result ∈ [reproduced], matched.Established blocks channelId result) ∧
      (SourceRuntime.history blocks matchedConfig matched
        [reproduced, .taskFailed]).isReadEligible = false := by
  have h := sequencer_read_eligibility blocks matchedConfig matched mem_cons_self [reproduced]
  refine ⟨(h.1 (by decide +kernel)).resolve_left (by decide +kernel), ?_⟩
  refine h.2.1 (by decide +kernel) .taskFailed ?_
  rintro (hfalse | ⟨_, _, _, -, hfalse⟩) <;> exact hfalse

end Sample

end LogosInspector.ChannelSources
