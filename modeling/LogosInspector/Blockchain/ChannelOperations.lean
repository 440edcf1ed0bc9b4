import LogosInspector.Json
import LogosInspector.Result

/-!
# The channel operations of a block

A finalized block is handed over as JSON. Of its transactions only the *channel
operations* matter – the operations with opcodes `0x10` to `0x13`, which configure a
channel, inscribe data on it, pay into it or out of it. `decodeBlockChannelOperations`
lists them in order, and fails on a channel operation it cannot read; operations of other
opcodes are passed over.

Three things are not this program's own code and are parameters of the model, in
`Externals`: the hash function SHA-256, the decoding of hexadecimal text,
and the format of the blocks that a sequencer inscribes.

What the decoder guarantees of an operation it has read is
`Catalog.decodeBlockChannelOperations_wellFormed`: ids are canonical hexadecimal
text, keys and signers are valid local text. It does **not** guarantee that the keys of a
configuration are distinct.
-/

namespace LogosInspector

/-- The code of other libraries that the program calls. -/
structure Externals where
  /-- SHA-256: the 32-byte digest of a byte string. -/
  sha256 : List UInt8 → List UInt8
  /-- `hex::decode`: the bytes of a hexadecimal text, or why it is not one. -/
  hexDecode : Text → Except String (List UInt8)
  /-- The blocks of a sequencer. -/
  SequencerBlock : Type
  /-- `borsh::from_slice`: the sequencer block that bytes encode, if they encode one. -/
  parseSequencerBlock : List UInt8 → Option SequencerBlock
  /-- `borsh::to_vec` of the part of a sequencer block that its hash covers. -/
  encodeHashable : SequencerBlock → Except String (List UInt8)
  /-- The hash that the header of a sequencer block states. -/
  headerHash : SequencerBlock → List UInt8

/-- Why a channel operation could not be read. -/
inductive ChannelOperationDecodeError
  /-- The operation is malformed. -/
  | invalid (detail : String)
  /-- A number is out of range. -/
  | overflow (detail : String)
  deriving DecidableEq

/-- The outcome of reading a channel operation. -/
abbrev ChannelOperationDecodeResult := Except ChannelOperationDecodeError

/-- What inscribed bytes are. -/
inductive InscriptionClassification
  /-- A sequencer block whose header states its hash. -/
  | sequencerBlock
  /-- Not a sequencer block. -/
  | raw
  /-- A sequencer block whose header states another hash. -/
  | conflicting
  deriving DecidableEq

/-- A channel operation, by kind. -/
inductive DecodedChannelOperationKind
  /-- The channel gets new keys. -/
  | configuration (keys : List Text) (withdrawThreshold : Text)
  /-- Bytes are inscribed on the channel. -/
  | inscription (parent signer : Text) (bytes : List UInt8)
      (classification : InscriptionClassification)
  /-- Something is paid into the channel. -/
  | deposit
  /-- Something is paid out of the channel. -/
  | withdraw
  deriving DecidableEq

/-- A channel operation that has been read. -/
structure DecodedChannelOperation where
  channelId : Text
  transactionHash : Text
  operationIndex : ℕ
  opcode : ℕ
  payload : Json
  kind : DecodedChannelOperationKind

/-! ### Fields -/

/-- A hexadecimal text without its mark `0x` or `0X`. -/
def withoutHexMark (value : Text) : Text :=
  ((value.dropStart? ['0', 'x']).or (value.dropStart? ['0', 'X'])).getD value

def canonicalHex (value : Text) (label : String) : ChannelOperationDecodeResult Text := do
  let value := withoutHexMark value
  reject (value.byteLength ≠ 64 ∨ ¬ value.all Text.isAsciiHexdigit = true)
    (.invalid (label ++ " must be 32-byte hexadecimal text"))
  pure value.toAsciiLowercase

def canonicalLocalText (value : Text) (label : String) : ChannelOperationDecodeResult Text := do
  let value := value.trim
  reject (value = [] ∨ 256 < value.byteLength ∨ value.any Text.isControl = true)
    (.invalid (label ++ " is invalid"))
  pure value

def requiredChannelId (value : Json) (keys : List String) : ChannelOperationDecodeResult Text := do
  let candidate ← required (keys.findSome? fun key => (value.get? key).bind Json.asStr?)
    (.invalid "Channel id is missing")
  canonicalHex candidate "Channel id"

/-- The number that a text of digits of a radix stands for, as `u64::from_str_radix` reads
it: an optional `+`, then at least one digit, and a value of 64 bits. -/
def parseU64 (radix : ℕ) (value : Text) : Option ℕ :=
  let digits := match value with
    | '+' :: rest => rest
    | chars => chars
  let digit (c : Char) : Option ℕ :=
    let n :=
      if Text.isAsciiDigit c then c.toNat - 48
      else if 'a' ≤ c ∧ c ≤ 'z' then c.toNat - 87
      else if 'A' ≤ c ∧ c ≤ 'Z' then c.toNat - 55
      else radix
    if n < radix then some n else none
  if digits = [] then none
  else
    (digits.foldlM (fun n c => (digit c).map (n * radix + ·)) 0).filter (· < 2 ^ 64)

def parseOpcode (value : Json) : Option ℕ :=
  value.asU64?.or (value.asStr?.bind fun value =>
    let value := value.trim
    match (value.dropStart? ['0', 'x']).or (value.dropStart? ['0', 'X']) with
    | some digits => parseU64 16 digits
    | none => parseU64 10 value)

def integerText : Json → Option Text
  | .number value => some value.toText
  | .string value => if value.trim = [] then none else some value.trim
  | _ => none

/-! ### Inscriptions -/

/-- The bytes hashed before a sequencer block. -/
def messagePrefix : List UInt8 :=
  Text.bytes "/LEE/v0.3/Message/Block/".toList ++ List.replicate 8 0

def classifyInscription (ext : Externals) (bytes : List UInt8) :
    ChannelOperationDecodeResult InscriptionClassification :=
  match ext.parseSequencerBlock bytes with
  | none => pure .raw
  | some block =>
    match ext.encodeHashable block with
    | .error error => throw (.invalid ("failed to re-encode Sequencer block: " ++ error))
    | .ok encoded =>
      if ext.sha256 (messagePrefix ++ encoded) = ext.headerHash block then pure .sequencerBlock
      else pure .conflicting

def inscriptionBytes (ext : Externals) : Json → ChannelOperationDecodeResult (List UInt8)
  | .string value =>
    match ext.hexDecode (withoutHexMark value) with
    | .ok bytes => pure bytes
    | .error error =>
      throw (.invalid ("ChannelInscribe inscription is not hexadecimal: " ++ error))
  | .array values => values.mapM fun value =>
    match value.asU64? with
    | some n =>
      if n < 256 then pure (UInt8.ofNat n)
      else throw (.invalid "ChannelInscribe byte array contains a non-byte value")
    | none => throw (.invalid "ChannelInscribe byte array contains a non-byte value")
  | _ => throw (.invalid "ChannelInscribe inscription is not bytes")

/-! ### Operations -/

def parseConfiguration (payload : Json) :
    ChannelOperationDecodeResult (Text × DecodedChannelOperationKind) := do
  let channelId ← requiredChannelId payload ["channel"]
  let keys ← required ((payload.get? "keys").bind Json.asArray?)
    (.invalid "ChannelConfig keys are missing")
  let keys ← keys.mapM fun key => do
    let key ← required key.asStr? (.invalid "ChannelConfig key is not text")
    canonicalLocalText key "Channel key"
  reject (keys = []) (.invalid "ChannelConfig keys are empty")
  let withdrawThreshold ← required ((payload.get? "withdraw_threshold").bind integerText)
    (.invalid "ChannelConfig withdraw_threshold is missing")
  pure (channelId, .configuration keys withdrawThreshold)

def parseInscription (ext : Externals) (payload : Json) :
    ChannelOperationDecodeResult (Text × DecodedChannelOperationKind) := do
  let channelId ← requiredChannelId payload ["channel_id"]
  let parent ← required ((payload.get? "parent").bind Json.asStr?)
    (.invalid "ChannelInscribe parent is missing")
  let parent ← canonicalHex parent "ChannelInscribe parent"
  let signer ← required ((payload.get? "signer").bind Json.asStr?)
    (.invalid "ChannelInscribe signer is missing")
  let signer ← canonicalLocalText signer "ChannelInscribe signer"
  let inscription ← required (payload.get? "inscription")
    (.invalid "ChannelInscribe inscription is missing")
  let bytes ← inscriptionBytes ext inscription
  let classification ← classifyInscription ext bytes
  pure (channelId, .inscription parent signer bytes classification)

/-- An opcode as it is shown: `0x10`. -/
def opcodeText (opcode : ℕ) : String := "0x" ++ String.ofList (Nat.toDigits 16 opcode)

def decodeChannelOperation (ext : Externals) (transactionHash : Option Text)
    (operationIndex : ℕ) (operation : Json) :
    ChannelOperationDecodeResult (Option DecodedChannelOperation) :=
  match (operation.get? "opcode").bind parseOpcode with
  | none => pure none
  | some opcode =>
    if ¬ (0x10 ≤ opcode ∧ opcode ≤ 0x13) then pure none
    else do
      let transactionHash ← required transactionHash
        (.invalid "Channel operation transaction hash is missing")
      let transactionHash ← canonicalHex transactionHash "transaction hash"
      let payload ← required (operation.get? "payload")
        (.invalid ("Channel opcode " ++ opcodeText opcode ++ " payload is missing"))
      let (channelId, kind) ←
        if opcode = 0x10 then parseConfiguration payload
        else if opcode = 0x11 then parseInscription ext payload
        else if opcode = 0x12 then
          (·, .deposit) <$> requiredChannelId payload ["channel_id"]
        else (·, .withdraw) <$> requiredChannelId payload ["channel_id"]
      pure (some { channelId, transactionHash, operationIndex, opcode, payload, kind })

/-- The operations of one transaction, from the given index on. -/
def decodeOperations (ext : Externals) (transactionHash : Option Text) :
    ℕ → List Json → ChannelOperationDecodeResult (List DecodedChannelOperation)
  | _, [] => pure []
  | index, operation :: rest => do
    reject (2 ^ 32 ≤ index) (.overflow "transaction operation index exceeds u32")
    let decoded ← decodeChannelOperation ext transactionHash index operation
    let others ← decodeOperations ext transactionHash (index + 1) rest
    pure (decoded.toList ++ others)

def decodeTransaction (ext : Externals) (transaction : Json) :
    ChannelOperationDecodeResult (List DecodedChannelOperation) :=
  match transaction.get? "mantle_tx" with
  | none => pure []
  | some mantleTx =>
    match (mantleTx.get? "ops").bind Json.asArray? with
    | none => pure []
    | some operations =>
      decodeOperations ext ((mantleTx.get? "hash").bind Json.asStr?) 0 operations

/-- **The channel operations of a block**, in the order of its transactions. -/
def decodeBlockChannelOperations (ext : Externals) (block : Json) :
    ChannelOperationDecodeResult (List DecodedChannelOperation) := do
  let transactions ← required ((block.get? "transactions").bind Json.asArray?)
    (.invalid "block transactions are not an array")
  let decoded ← transactions.mapM (decodeTransaction ext)
  pure decoded.flatten

end LogosInspector
