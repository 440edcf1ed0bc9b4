import LogosInspector.Catalog.Parsed

/-!
# Fetching evidence again

A piece of evidence names an operation of a block by the hash of its transaction and its index. To
show it, the block is fetched once more, and the operation is looked up in it by
`extractCatalogEvidencePayload`. This walks over the transactions with rules of its own: the hash
of **every** transaction has to be well formed, also where there is no channel operation, and no
other transaction may have the hash that is looked for; the block was read without either check.

So the evidence of a block can be fetched again, and only as it was filed, exactly if these two
hold and no channel starts in the block (`evidence_recoverable_iff`): an inscription that starts a
channel is filed twice, and each of the two references is accepted in place of the other.
-/

namespace LogosInspector.Catalog

open List

/-- The libraries, with the one that writes JSON. -/
structure PayloadExternals extends Externals where
  /-- `serde_json::to_vec` -/
  encodeJson : Json → Except String (List UInt8)

inductive CatalogEvidencePayloadFormat
  | json
  | bytes
  deriving DecidableEq

structure CatalogEvidencePayload where
  opcode : ℕ
  bytes : List UInt8
  format : CatalogEvidencePayloadFormat
  deriving DecidableEq

/-- The engine's `canonical_hex`, which trims. -/
def canonicalTrimmedHex (value : Text) (label : String) : CatalogEngineResult Text := do
  let value := withoutHexMark value.trim
  reject (value.byteLength ≠ 64 ∨ ¬ value.all Text.isAsciiHexdigit = true)
    (.invalidBlock (label ++ " must be 32-byte hexadecimal text"))
  pure value.toAsciiLowercase

/-- A transaction that has a hash, and the hash. -/
def hashedTransaction (transaction : Json) : Option (Json × Text) := do
  let mantleTx ← transaction.get? "mantle_tx"
  let hash ← (mantleTx.get? "hash").bind Json.asStr?
  some (mantleTx, hash)

/-- The loop over the transactions; `found` is the transaction that was found so far. -/
def matchingTransaction (transactionHash : Text) :
    List Json → Option Json → CatalogEngineResult (Option Json)
  | [], found => pure found
  | transaction :: transactions, found =>
    match hashedTransaction transaction with
    | none => matchingTransaction transactionHash transactions found
    | some (mantleTx, candidateHash) => do
      let candidateHash ← canonicalTrimmedHex candidateHash "transaction hash"
      if candidateHash ≠ transactionHash then
        matchingTransaction transactionHash transactions found
      else do
        reject (found.isSome = true)
          (.sourceInconsistent "refetched evidence block contains duplicate transaction hashes")
        matchingTransaction transactionHash transactions (some mantleTx)

/-- The operation that a reference names. -/
def referencedOperation (ext : Externals) (block : CatalogL1Block)
    (reference : ZoneEvidenceReference) : CatalogEngineResult DecodedChannelOperation := do
  reject (block.checkpoint.slot ≠ reference.l1Slot ∨ block.checkpoint.blockId ≠ reference.blockId)
    (.sourceInconsistent "refetched evidence block does not match its catalog reference")
  let transactionHash ← required reference.transactionHash
    (.invalidState "catalog evidence reference has no transaction hash")
  let transactions ← required ((block.payload.get? "transactions").bind Json.asArray?)
    (.invalidBlock "block transactions are not an array")
  let matching ← matchingTransaction transactionHash transactions none
  let mantleTx ← required matching (.sourceInconsistent "refetched evidence transaction is missing")
  let operations ← required ((mantleTx.get? "ops").bind Json.asArray?)
    (.sourceInconsistent "refetched evidence transaction operations are missing")
  let operation ← required operations[reference.operationIndex]?
    (.sourceInconsistent "refetched evidence operation is missing")
  let decoded ← (decodeChannelOperation ext (some transactionHash) reference.operationIndex
    operation).mapError mapChannelDecodeError
  required decoded (.sourceInconsistent "refetched evidence operation is not a Channel operation")

/-- Whether evidence of the given kind can be of an operation, the use it then has, and the
format and the bytes of the payload. -/
def payloadOf (ext : PayloadExternals) (decoded : DecodedChannelOperation)
    (evidenceKind : ZoneEvidenceKind) : CatalogEngineResult
      (Bool × CatalogEvidenceUse × CatalogEvidencePayloadFormat × List UInt8) :=
  match decoded.kind with
  | .configuration .. => do
    let bytes ← (ext.encodeJson decoded.payload).mapError fun error =>
      .invalidBlock ("failed to encode Channel configuration evidence: " ++ error)
    pure (evidenceKind == .channelConfiguration, .pointSnapshot, .json, bytes)
  | .inscription parent _ bytes classification =>
    pure (evidenceKind == inscriptionEvidenceKind classification ||
      evidenceKind == .channelCreated && parent.all (· == '0'), .presence, .bytes, bytes)
  | .deposit | .withdraw => do
    let bytes ← (ext.encodeJson decoded.payload).mapError fun error =>
      .invalidBlock ("failed to encode Channel operation evidence: " ++ error)
    pure (evidenceKind == .channelOperation, .replayContribution, .json, bytes)

def extractCatalogEvidencePayload (ext : PayloadExternals) (block : CatalogL1Block)
    (reference : ZoneEvidenceReference) : CatalogEngineResult CatalogEvidencePayload := do
  let decoded ← referencedOperation ext.toExternals block reference
  reject (decoded.channelId ≠ reference.channelId)
    (.sourceInconsistent "refetched evidence belongs to another Channel")
  let (matchesKind, expectedUse, format, bytes) ← payloadOf ext decoded reference.evidenceKind
  reject (matchesKind = false ∨ reference.evidenceUse ≠ expectedUse)
    (.sourceInconsistent "refetched evidence kind does not match its catalog reference")
  pure ⟨decoded.opcode, bytes, format⟩

/-! ### Hashes -/

variable {value id : Text} {label : String} {ext : Externals} {hash : Option Text} {index : ℕ}
  {operation : DecodedChannelOperation} {operations : List DecodedChannelOperation}

/-- The text is its mark, if it has one, and the rest. -/
theorem mem_withoutHexMark {c : Char} (hc : c ∈ value) :
    c ∈ withoutHexMark value ∨ c ∈ ['0', 'x', 'X'] := by
  have hdrop : ∀ start rest : Text, value.dropStart? start = some rest → value = start ++ rest := by
    intro _ rest h
    rw [Text.dropStart?] at h
    split_ifs at h with hstart
    cases h
    exact (prefix_iff_eq_append.1 hstart).symm
  rw [withoutHexMark]
  rcases hlow : value.dropStart? ['0', 'x'] with _ | rest
  · rcases hupper : value.dropStart? ['0', 'X'] with _ | rest
    · exact .inl hc
    · rw [hdrop _ _ hupper] at hc
      simp only [Option.none_or, Option.getD_some]
      simp only [cons_append, nil_append, mem_cons] at hc ⊢
      tauto
  · rw [hdrop _ _ hlow] at hc
    simp only [Option.some_or, Option.getD_some]
    simp only [cons_append, nil_append, mem_cons] at hc ⊢
    tauto

/-- A hash that the decoder accepts is accepted with the same result when it is looked up. -/
theorem canonicalTrimmedHex_of_ok
    (h : canonicalHex value label = .ok id) : canonicalTrimmedHex value label = .ok id := by
  have htrim : value.trim = value := by
    simp only [canonicalHex, bind_eq_ok, exists_unit, reject_eq_ok, not_or, not_not] at h
    refine Text.trim_of_all fun c hc => ?_
    rcases mem_withoutHexMark hc with hc | hc
    · exact Text.isWhitespace_of_isAsciiHexdigit (all_eq_true.1 h.1.2 c hc)
    · simp only [mem_cons, not_mem_nil, or_false] at hc
      rcases hc with rfl | rfl | rfl <;> rfl
  simp only [canonicalHex, canonicalTrimmedHex, bind_eq_ok, exists_unit, reject_eq_ok,
    pure_eq_ok, htrim] at h ⊢
  exact h

/-- A canonical hash stands for itself. -/
theorem canonicalHex_idem
    (h : canonicalHex value label = .ok id) : canonicalHex id label = .ok id := by
  have hid := canonicalHex_eq_ok h
  have hhex : ∀ c ∈ id, Text.isAsciiHexdigit c = true := fun c hc =>
    isAsciiHexdigit_of_lower (all_eq_true.1 hid.2 c hc)
  have hmark : withoutHexMark id = id := by
    rw [withoutHexMark, Text.dropStart?_of_hex hhex (c := 'x') (by simp) (by decide),
      Text.dropStart?_of_hex hhex (c := 'X') (by simp) (by decide)]
    rfl
  simp only [canonicalHex, bind_eq_ok, exists_unit, reject_eq_ok, pure_eq_ok, hmark, not_or,
    not_not]
  refine ⟨⟨hid.1, all_eq_true.2 hhex⟩, ?_⟩
  simp only [canonicalHex, bind_eq_ok, exists_unit, reject_eq_ok, pure_eq_ok, not_or, not_not] at h
  rw [← h.2]
  exact Text.toAsciiLowercase_idem_of_hex fun c hc => all_eq_true.1 h.1.2 c hc

/-- The transactions of a hash. -/
def transactionsOf (transactionHash : Text) (transactions : List Json) : List Json :=
  ((transactions.filterMap hashedTransaction).filter fun x =>
    (canonicalTrimmedHex x.2 "transaction hash").toOption = some transactionHash).map Prod.fst

/-- The hashes of all transactions that have one are well formed. -/
def HashesOk (transactions : List Json) : Prop :=
  ∀ x ∈ transactions.filterMap hashedTransaction,
    ∃ id, canonicalTrimmedHex x.2 "transaction hash" = .ok id

/-- **What the loop finds**: the one transaction of the hash, if all hashes are well formed. -/
theorem matchingTransaction_eq_ok {transactionHash : Text} {transactions : List Json}
    {found result : Option Json} :
    matchingTransaction transactionHash transactions found = .ok result ↔ HashesOk transactions ∧
        found.toList ++ transactionsOf transactionHash transactions = result.toList := by
  induction transactions generalizing found with
  | nil =>
    rw [matchingTransaction, pure_eq_ok]
    cases found <;> cases result <;> simp [HashesOk, transactionsOf]
  | cons tx transactions ih =>
    rw [matchingTransaction]
    rcases hhas : hashedTransaction tx with _ | ⟨mantleTx, hash⟩
    · simp only [HashesOk, transactionsOf, filterMap_cons_none hhas, ih]
    · rcases hid : canonicalTrimmedHex hash "transaction hash" with error | id
      · simp [HashesOk, filterMap_cons_some hhas, hid, bind_eq_ok]
      · have hok : HashesOk (tx :: transactions) ↔ HashesOk transactions := by
          simp [HashesOk, filterMap_cons_some hhas, hid]
        have hof : transactionsOf transactionHash (tx :: transactions) =
            (if id = transactionHash then [mantleTx] else []) ++
              transactionsOf transactionHash transactions := by
          simp only [transactionsOf, filterMap_cons_some hhas, filter_cons, hid,
            Except.toOption, Option.some.injEq, decide_eq_true_eq]
          split_ifs <;> rfl
        simp only [hid, bind_eq_ok, Except.ok.injEq, exists_eq_left', hok, hof]
        by_cases hs : id = transactionHash
        · rw [if_neg (not_not.2 hs), if_pos hs]
          simp only [bind_eq_ok, exists_unit, reject_eq_ok, ih]
          cases found with
          | none => simp
          | some other =>
            -- two transactions of the hash are more than a result can have
            have hlong : ∀ l : List Json, other :: mantleTx :: l ≠ result.toList := by
              intro _ h
              have := congrArg List.length h
              cases result <;> simp at this
            simp [hlong]
        · rw [if_pos hs, if_neg hs, ih, nil_append]

/-! ### The operations of a block -/

/-- What an operation keeps of where it was read; its own hash would do as well. -/
theorem decodeChannelOperation_place
    {value : Json}
    (h : decodeChannelOperation ext hash index value = .ok (some operation)) :
    (∃ text, hash = some text ∧
      canonicalHex text "transaction hash" = .ok operation.transactionHash) ∧
    operation.operationIndex = index ∧
    decodeChannelOperation ext (some operation.transactionHash) index value =
      .ok (some operation) := by
  rw [decodeChannelOperation] at h ⊢
  split at h
  · cases h
  · next opcode _ =>
    by_cases ho : ¬ (0x10 ≤ opcode ∧ opcode ≤ 0x13)
    · rw [if_pos ho] at h
      cases h
    · simp only [if_neg ho]
      -- the four opcodes differ only in how the payload is parsed
      split_ifs at h ⊢
      all_goals
        simp only [bind_eq_ok, required_eq_ok, pure_eq_ok, Option.some.injEq] at h ⊢
        obtain ⟨text, htext, id, hid, payload, hp, parsed, hparsed, rfl⟩ := h
        exact ⟨⟨text, htext, hid⟩, rfl, id, rfl, id, canonicalHex_idem hid, payload, hp,
          parsed, hparsed, rfl⟩

theorem mem_decodeOperations
    {values : List Json}
    (h : decodeOperations ext hash index values = .ok operations)
    (hm : operation ∈ operations) :
    ∃ i value, values[i]? = some value ∧
      decodeChannelOperation ext hash (index + i) value = .ok (some operation) := by
  induction values generalizing index operations with
  | nil =>
    cases h
    cases hm
  | cons value _ ih =>
    simp only [decodeOperations, bind_eq_ok, exists_unit, pure_eq_ok] at h
    obtain ⟨-, _, hdec, _, ho, rfl⟩ := h
    rcases mem_append.1 hm with hm | hm
    · rw [Option.mem_toList] at hm
      exact ⟨0, value, rfl, hm ▸ hdec⟩
    · obtain ⟨i, value', hval', _⟩ := ih ho hm
      exact ⟨i + 1, value', hval', by rwa [← add_assoc, add_right_comm]⟩

/-- **Where an operation of a block stands**: in a transaction of its hash, at its index. -/
theorem mem_decodeBlockChannelOperations {block : Json}
    (h : decodeBlockChannelOperations ext block = .ok operations)
    (hm : operation ∈ operations) :
    ∃ transactions mantleTx values value,
      (block.get? "transactions").bind Json.asArray? = some transactions ∧
      mantleTx ∈ transactionsOf operation.transactionHash transactions ∧
      (mantleTx.get? "ops").bind Json.asArray? = some values ∧
      values[operation.operationIndex]? = some value ∧
      decodeChannelOperation ext (some operation.transactionHash) operation.operationIndex value =
        .ok (some operation) := by
  simp only [decodeBlockChannelOperations, bind_eq_ok, required_eq_ok, pure_eq_ok] at h
  obtain ⟨transactions, htransactions, _, hdec, rfl⟩ := h
  obtain ⟨list, hlist, hm⟩ := mem_flatten.1 hm
  obtain ⟨tx, htx, hread⟩ := mapM_eq_ok hdec list hlist
  rw [decodeTransaction] at hread
  rcases hmantle : tx.get? "mantle_tx" with _ | mantleTx
  · rw [hmantle] at hread
    cases hread
    cases hm
  rcases hops : (mantleTx.get? "ops").bind Json.asArray? with _ | values
  · simp only [hmantle, hops] at hread
    cases hread
    cases hm
  simp only [hmantle, hops] at hread
  obtain ⟨_, value, hval, ho⟩ := mem_decodeOperations hread hm
  rw [zero_add] at ho
  obtain ⟨⟨text, htext, hid⟩, hind, hown⟩ := decodeChannelOperation_place ho
  have hhas : hashedTransaction tx = some (mantleTx, text) := by
    simp [hashedTransaction, hmantle, htext]
  refine ⟨transactions, mantleTx, values, value, htransactions, ?_, hops, hind ▸ hval, hind ▸ hown⟩
  refine mem_map.2 ⟨(mantleTx, text), mem_filter.2
    ⟨mem_filterMap.2 ⟨tx, htx, hhas⟩, ?_⟩, rfl⟩
  simp [canonicalTrimmedHex_of_ok hid, Except.toOption]

/-! ### What is extracted -/

/-- The hashes of a block are well formed, and the operation's transaction is the only one of its
hash. -/
def Unambiguous (block : CatalogL1Block) (operation : DecodedChannelOperation) : Prop :=
  ∃ transactions, (block.payload.get? "transactions").bind Json.asArray? = some transactions ∧
    HashesOk transactions ∧ (transactionsOf operation.transactionHash transactions).length = 1

/-- A reference names an operation of the block exactly if it states the block and the operation
can be told from all others. -/
theorem referencedOperation_iff {block : CatalogL1Block}
    {reference : ZoneEvidenceReference}
    (h : decodeBlockChannelOperations ext block.payload = .ok operations)
    (hm : operation ∈ operations)
    (hhash : reference.transactionHash = some operation.transactionHash)
    (hind : reference.operationIndex = operation.operationIndex)
    {decoded : DecodedChannelOperation} :
    referencedOperation ext block reference = .ok decoded ↔
      (block.checkpoint.slot = reference.l1Slot ∧ block.checkpoint.blockId = reference.blockId) ∧
      Unambiguous block operation ∧ decoded = operation := by
  obtain ⟨_, mantleTx, values, value, htxs, hmantle, hval, hvalue,
    ho⟩ := mem_decodeBlockChannelOperations h hm
  simp only [Unambiguous, referencedOperation, bind_eq_ok, exists_unit, reject_eq_ok,
    required_eq_ok, mapError_eq_ok, matchingTransaction_eq_ok, hhash, hind, htxs, not_or, not_not,
    Option.some.injEq, exists_eq_left', Option.toList_none, nil_append]
  refine and_congr_right fun _ => ?_
  constructor
  · rintro ⟨_, ⟨hashes, hof⟩, found, rfl, _, hval', _, hvalue', _, hdec, rfl⟩
    rw [hof, Option.toList_some, mem_singleton] at hmantle
    subst hmantle
    rw [hval, Option.some.injEq] at hval'
    subst hval'
    rw [hvalue, Option.some.injEq] at hvalue'
    subst hvalue'
    rw [ho] at hdec
    cases hdec
    exact ⟨⟨hashes, by rw [hof]; rfl⟩, rfl⟩
  · rintro ⟨⟨hashes, hone⟩, rfl⟩
    obtain ⟨_, hof⟩ := length_eq_one_iff.1 hone
    rw [hof, mem_singleton] at hmantle
    subst hmantle
    exact ⟨some mantleTx, ⟨hashes, hof⟩, mantleTx, rfl, values, hval, value, hvalue,
      some decoded, ho, rfl⟩

/-- Evidence of the given kind can be of the operation: it is what the operation is filed as. -/
def FiledAs (operation : DecodedChannelOperation) (evidenceKind : ZoneEvidenceKind) : Prop :=
  evidenceKind = (observedEvidence (channelObservation operation).kind).1 ∨
    evidenceKind = .channelCreated ∧ (channelObservation operation).startsChannel = true

/-- The payload of an operation. -/
structure PayloadFor (operation : DecodedChannelOperation) (payload : CatalogEvidencePayload) :
    Prop where
  opcode : payload.opcode = operation.opcode
  bytes : ∀ parent signer bytes classification,
    operation.kind = .inscription parent signer bytes classification → payload.bytes = bytes

theorem payloadOf_eq {ext : PayloadExternals}
    (hjson : ∀ json, ∃ bytes, ext.encodeJson json = .ok bytes)
    (operation : DecodedChannelOperation) (evidenceKind : ZoneEvidenceKind) :
    ∃ filed format bytes, payloadOf ext operation evidenceKind =
        .ok (filed, (observedEvidence (channelObservation operation).kind).2.1, format, bytes) ∧
      (filed = true ↔ FiledAs operation evidenceKind) ∧
      PayloadFor operation ⟨operation.opcode, bytes, format⟩ := by
  obtain ⟨encoded, henc⟩ := hjson operation.payload
  rw [payloadOf]
  cases hk : operation.kind with
  | configuration =>
    refine ⟨evidenceKind == .channelConfiguration, .json, encoded, ?_, ?_, rfl, by simp [hk]⟩
    · simp [henc, Except.mapError, channelObservation, hk, observedEvidence]
    · simp [FiledAs, channelObservation, hk, observedEvidence, ChannelObservation.startsChannel]
  | inscription parent _ bytes classification =>
    refine ⟨evidenceKind == inscriptionEvidenceKind classification ||
      evidenceKind == .channelCreated && parent.all (· == '0'), .bytes, bytes, ?_, ?_, rfl, ?_⟩
    · simp only [channelObservation, hk, observedEvidence]
      rfl
    · simp [FiledAs, channelObservation, hk, observedEvidence, ChannelObservation.startsChannel]
    · intro _ _ _ _ ho
      cases hk.symm.trans ho
      rfl
  | deposit | withdraw =>
    refine ⟨evidenceKind == .channelOperation, .json, encoded, ?_, ?_, rfl, by simp [hk]⟩
    · simp [henc, Except.mapError, channelObservation, hk, observedEvidence]
    · simp [FiledAs, channelObservation, hk, observedEvidence, ChannelObservation.startsChannel]

section Extraction

variable {ext : PayloadExternals} {block : CatalogL1Block} {reference : ZoneEvidenceReference}

/-- **What is extracted for a reference to an operation of the block**, and when. -/
theorem extractCatalogEvidencePayload_eq_ok
    (hjson : ∀ json, ∃ bytes, ext.encodeJson json = .ok bytes)
    (h : decodeBlockChannelOperations ext.toExternals block.payload = .ok operations)
    (hm : operation ∈ operations)
    (hhash : reference.transactionHash = some operation.transactionHash)
    (hind : reference.operationIndex = operation.operationIndex) :
    ((∃ payload, extractCatalogEvidencePayload ext block reference = .ok payload) ↔
      (block.checkpoint.slot = reference.l1Slot ∧ block.checkpoint.blockId = reference.blockId) ∧
      Unambiguous block operation ∧ operation.channelId = reference.channelId ∧
      FiledAs operation reference.evidenceKind ∧
      reference.evidenceUse = (observedEvidence (channelObservation operation).kind).2.1) ∧
    ∀ payload, extractCatalogEvidencePayload ext block reference = .ok payload →
      PayloadFor operation payload := by
  obtain ⟨filed, format, bytes, hp, hfile, hf⟩ :=
    payloadOf_eq hjson operation reference.evidenceKind
  have hok : ∀ payload, extractCatalogEvidencePayload ext block reference = .ok payload ↔
      ((block.checkpoint.slot = reference.l1Slot ∧ block.checkpoint.blockId = reference.blockId) ∧
      Unambiguous block operation) ∧ operation.channelId = reference.channelId ∧
      (filed = true ∧
        reference.evidenceUse = (observedEvidence (channelObservation operation).kind).2.1) ∧
      ⟨operation.opcode, bytes, format⟩ = payload := by
    intro payload
    simp only [extractCatalogEvidencePayload, bind_eq_ok, exists_unit, reject_eq_ok, pure_eq_ok,
      referencedOperation_iff h hm hhash hind, not_or, not_not, Bool.not_eq_false]
    constructor
    · rintro ⟨_, ⟨hblk, hone, rfl⟩, hchan, _, hres, hrest⟩
      rw [hp] at hres
      cases hres
      exact ⟨⟨hblk, hone⟩, hchan, hrest⟩
    · rintro ⟨⟨hblk, hone⟩, hchan, hrest⟩
      exact ⟨operation, ⟨hblk, hone, rfl⟩, hchan, _, hp, hrest⟩
  constructor
  · simp only [hok, ← hfile, and_assoc, exists_and_left, exists_eq', and_true]
  · intro payload hext
    obtain ⟨-, -, -, rfl⟩ := (hok payload).1 hext
    exact hf

/-- The evidence of an operation is filed under its hash and index, as what it is. -/
theorem mem_observationEvidence_operation {segmentId : Text}
    (h : reference ∈ observationEvidence block segmentId (channelObservation operation)) :
    reference.transactionHash = some operation.transactionHash ∧
      reference.operationIndex = operation.operationIndex ∧
      (block.checkpoint.slot = reference.l1Slot ∧ block.checkpoint.blockId = reference.blockId) ∧
      operation.channelId = reference.channelId ∧ FiledAs operation reference.evidenceKind ∧
      reference.evidenceUse = (observedEvidence (channelObservation operation).kind).2.1 := by
  rcases mem_cons.1 h with rfl | h
  · exact ⟨rfl, rfl, ⟨rfl, rfl⟩, rfl, .inl rfl, rfl⟩
  · split_ifs at h with hstart
    · rw [mem_singleton] at h
      subst h
      refine ⟨rfl, rfl, ⟨rfl, rfl⟩, rfl, .inr ⟨rfl, hstart⟩, ?_⟩
      show CatalogEvidenceUse.presence = _
      rw [ChannelObservation.startsChannel] at hstart
      cases hk : (channelObservation operation).kind <;>
        simp [hk, observedEvidence] at hstart ⊢
    · cases h

/-- A reference that is to the same operation, but differs in what it says of it. -/
def Altered (reference altered : ZoneEvidenceReference) : Prop :=
  altered.transactionHash = reference.transactionHash ∧
    altered.operationIndex = reference.operationIndex ∧
    (altered.l1Slot ≠ reference.l1Slot ∨ altered.blockId ≠ reference.blockId ∨
      altered.channelId ≠ reference.channelId ∨ altered.evidenceKind ≠ reference.evidenceKind ∨
      altered.evidenceUse ≠ reference.evidenceUse)

/-- **The evidence of a block can be fetched again, and no altered reference to it, exactly if**
in a block with channel operations all hashes are well formed, no other transaction has the hash
of one with channel operations, and no channel starts. -/
theorem evidence_recoverable_iff (ext : PayloadExternals)
    (hjson : ∀ json, ∃ bytes, ext.encodeJson json = .ok bytes) {working working' : WorkingCatalog}
    {blocks : List CatalogL1Block} {segmentId : Text} {context : CatalogEngineContext}
    (hread : ingestBlocks ext.toExternals working blocks segmentId context = .ok working')
    {block : CatalogL1Block} (hblock : block ∈ blocks) :
    ∃ operations, decodeBlockChannelOperations ext.toExternals block.payload = .ok operations ∧
      ((∀ operation ∈ operations,
          ∀ reference ∈ observationEvidence block segmentId (channelObservation operation),
          (∃ payload, extractCatalogEvidencePayload ext block reference = .ok payload ∧
            PayloadFor operation payload) ∧
          ∀ altered, Altered reference altered →
            ∃ error, extractCatalogEvidencePayload ext block altered = .error error) ↔
        ∀ operation ∈ operations, Unambiguous block operation ∧
          (channelObservation operation).startsChannel = false) := by
  obtain ⟨operations, h⟩ := (ingestBlocks_eq_ok hread).1 block hblock
  refine ⟨operations, h, fun hall operation hmem => ?_,
    fun hall operation hmem reference href => ?_⟩
  · -- the reference to the operation itself, and that reference as one to the start of a channel
    have hprimary : primaryEvidence block segmentId (channelObservation operation) ∈
        observationEvidence block segmentId (channelObservation operation) := mem_cons_self
    obtain ⟨⟨payload, hpayload, -⟩, haltered⟩ := hall operation hmem _ hprimary
    have hone := ((extractCatalogEvidencePayload_eq_ok hjson h hmem rfl rfl).1.1
      ⟨payload, hpayload⟩).2.1
    refine ⟨hone, ?_⟩
    by_contra hstarts
    rw [Bool.not_eq_false] at hstarts
    have hobserved : channelObservation operation ∈ blockObservations ext.toExternals block := by
      rw [blockObservations, h]
      exact mem_map_of_mem hmem
    have hkind : (observedEvidence (channelObservation operation).kind).1 ≠ .channelCreated :=
      (wellKinded_of_mem hobserved).ne_channelCreated
    let created := evidenceReference (channelObservation operation) block segmentId .channelCreated
      .presence
    have hcreated : created ∈
        observationEvidence block segmentId (channelObservation operation) := by
      rw [observationEvidence, if_pos hstarts]
      exact mem_cons_of_mem _ (mem_singleton_self _)
    obtain ⟨error, herror⟩ := haltered created ⟨rfl, rfl, .inr (.inr (.inr (.inl hkind.symm)))⟩
    obtain ⟨payload', hpayload', -⟩ := (hall operation hmem _ hcreated).1
    rw [herror] at hpayload'
    cases hpayload'
  · obtain ⟨hone, hstarts⟩ := hall operation hmem
    obtain ⟨hhash, hindex, hplace, hchannel, hfiled, huse⟩ :=
      mem_observationEvidence_operation href
    have hextract := extractCatalogEvidencePayload_eq_ok hjson h hmem hhash hindex
    obtain ⟨payload, hpayload⟩ := hextract.1.2 ⟨hplace, hone, hchannel, hfiled, huse⟩
    refine ⟨⟨payload, hpayload, hextract.2 payload hpayload⟩, ?_⟩
    rintro altered ⟨hhash', hindex', hdiffers⟩
    rcases hresult : extractCatalogEvidencePayload ext block altered with error | payload'
    · exact ⟨error, rfl⟩
    · -- an altered reference that is accepted states the same
      obtain ⟨hplace', -, hchannel', hfiled', huse'⟩ := (extractCatalogEvidencePayload_eq_ok hjson h
        hmem (hhash'.trans hhash) (hindex'.trans hindex)).1.1 ⟨payload', hresult⟩
      simp only [FiledAs, hstarts, Bool.false_eq_true, and_false, or_false] at hfiled hfiled'
      simp [← hplace.1, ← hplace.2, ← hplace'.1, ← hplace'.2, ← hchannel, ← hchannel', hfiled,
        hfiled', huse, huse'] at hdiffers

end Extraction

/-- A character as it is written in a JSON text. -/
def escaped : Char → Text
  | '"' => "\\\"".toList
  | '\\' => "\\\\".toList
  | '\n' => "\\n".toList
  | '\r' => "\\r".toList
  | '\t' => "\\t".toList
  | '\x08' => "\\b".toList
  | '\x0c' => "\\f".toList
  | char =>
    if char.toNat < 0x20 then
      "\\u00".toList ++ [Nat.digitChar (char.toNat / 16), Nat.digitChar (char.toNat % 16)]
    else [char]

def quoted (text : Text) : Text := '"' :: text.flatMap escaped ++ ['"']

mutual

/-- The compact text of a value. -/
def written : Json → Text
  | .null => "null".toList
  | .bool value => (if value then "true" else "false").toList
  | .number value => value.toText
  | .string value => quoted value
  | .array values => '[' :: writtenElements values ++ [']']
  | .object fields => '{' :: writtenFields fields ++ ['}']

def writtenElements : List Json → Text
  | [] => []
  | [value] => written value
  | value :: values => written value ++ ',' :: writtenElements values

def writtenFields : List (Text × Json) → Text
  | [] => []
  | [(name, value)] => quoted name ++ ':' :: written value
  | (name, value) :: fields => quoted name ++ ':' :: written value ++ ',' :: writtenFields fields

end

def samplePayloadExternals : PayloadExternals :=
  { sampleExternals with encodeJson := fun value => .ok (Text.bytes (written value)) }

/-- A working copy in which nothing is read yet. -/
def sampleWorking : WorkingCatalog :=
  ⟨none, some ⟨some ⟨9, sampleId '9'⟩, none⟩, .empty, .empty, .empty, .empty, .empty, .empty⟩

/-- A block with one configuration. -/
theorem evidence_recoverable_iff_configuration :
    ∃ operations, decodeBlockChannelOperations sampleExternals
        (sampleBlockOf 4 '4' '0' [sampleConfiguration 'c' ["A"]]).payload = .ok operations ∧
      ((∀ operation ∈ operations, ∀ reference ∈ observationEvidence
            (sampleBlockOf 4 '4' '0' [sampleConfiguration 'c' ["A"]]) "segment".toList
            (channelObservation operation),
          (∃ payload, extractCatalogEvidencePayload samplePayloadExternals
            (sampleBlockOf 4 '4' '0' [sampleConfiguration 'c' ["A"]]) reference = .ok payload ∧
            PayloadFor operation payload) ∧
          ∀ altered, Altered reference altered →
            ∃ error, extractCatalogEvidencePayload samplePayloadExternals
              (sampleBlockOf 4 '4' '0' [sampleConfiguration 'c' ["A"]]) altered = .error error) ↔
        ∀ operation ∈ operations,
          Unambiguous (sampleBlockOf 4 '4' '0' [sampleConfiguration 'c' ["A"]]) operation ∧
          (channelObservation operation).startsChannel = false) := by
  have hread : (ingestBlocks sampleExternals sampleWorking
      [sampleBlockOf 4 '4' '0' [sampleConfiguration 'c' ["A"]]] "segment".toList
      sampleContext).isOk = true := by decide +kernel
  rcases hresult : ingestBlocks sampleExternals sampleWorking
      [sampleBlockOf 4 '4' '0' [sampleConfiguration 'c' ["A"]]] "segment".toList
      sampleContext with error | working'
  · rw [hresult] at hread
    cases hread
  · exact evidence_recoverable_iff samplePayloadExternals (fun _ => ⟨_, rfl⟩) hresult
      (mem_singleton_self _)

/-- A block with one configuration, and a transaction without operations whose hash is not one: the
block is read, and the evidence of the configuration cannot be fetched. -/
theorem evidence_not_recovered : (ingestBlocks sampleExternals sampleWorking
      [sampleBlockWith 4 '4' '0' [sampleTransaction '4' [sampleConfiguration 'c' ["A"]],
        .object [("mantle_tx".toList, .object [("hash".toList, .string "unknown".toList)])]]]
      "segment".toList sampleContext).toOption.map (fun working =>
        working.evidence.records.map fun reference =>
          (extractCatalogEvidencePayload samplePayloadExternals
            (sampleBlockWith 4 '4' '0' [sampleTransaction '4' [sampleConfiguration 'c' ["A"]],
              .object [("mantle_tx".toList, .object [("hash".toList, .string "unknown".toList)])]])
            reference).toOption) = some [none] := by
  decide +kernel

end LogosInspector.Catalog
