import LogosInspector.Blockchain.BlocksRange

/-!
# The snapshot of live blocks

The dashboard shows the blocks of a range query together with those of the node's event stream.
The program puts the two lists one behind the other, drops every block that shares a key with one
before it, sorts the rest by slot and cuts the list at a limit.

A block has two keys, its id and its slot, so that of two competing blocks of one slot the second
is dropped as well. Of the blocks that are left none is lost but for the limit
(`live_blocks_distinct`).
-/

namespace LogosInspector.Blockchain

open List Option

variable (parser : JsonParser)

/-! ### The blocks of a stream -/

/-- The payload of a line of a stream, without the marks of server-sent events. -/
def streamLinePayload (line : Text) : Option Text :=
  if line.trim = [] ∨ "event:".toList <+: line.trim ∨ "id:".toList <+: line.trim then none
  else some (((line.trim.dropStart? "data:".toList).map Text.trim).getD line.trim)

/-- The events of a stream. An error has its outermost message, as `to_string` shows it. -/
def streamEventValues (text : Text) : Except String (List Json) :=
  let failed := "invalid stream JSON: " ++ (responseExcerpt text.trim).toMessage
  if text.trim = [] then return []
  else if text.trim.head? = some '[' then do
    let value ← (parser text.trim).mapError fun _ => failed
    required value.asArray? failed
  else
    return ((text.splitOn '\n').filterMap streamLinePayload).map fun line =>
      (parser line).toOption.getD (.string line)

/-- The block of an event. The parser rejects values that are nested more than 128 deep, so that
this depth is never used up. -/
def blockFromStreamEvent : ℕ → Json → Option Json
  | 0, _ => none
  | depth + 1, event =>
    (((event.field? "block".toList).bind (blockPayloadValue parser)).map fun block =>
      block.setField "_chain".toList (chainStateForBlock block event)).or <|
    (((event.field? "newBlock".toList).or (event.field? "new_block".toList)).bind fun value =>
      (blockFromStreamEvent depth value).or (blockPayloadValue parser value)).or <|
    (event.field? "header".toList).map fun _ => event

structure BlockchainLiveBlocksReport where
  endpoint : Text
  source : Text
  blocks : List Json
  unknownEvents : List Json

def parseBlockStreamResponse (text : Text) : Except String BlockchainLiveBlocksReport := do
  let events ← streamEventValues parser text
  return ⟨[], "stream".toList, events.filterMap (blockFromStreamEvent parser 128),
    events.filter fun event => (blockFromStreamEvent parser 128 event).isNone⟩

/-! ### Deduplication -/

/-- The id of a block in its header, or its hash. -/
def blockHash (block : Json) : Text :=
  (((headerField block "id").or (headerField block "hash")).bind Json.asStr?).getD []

/-- The slot of a block, with zero for none. -/
def slotOrZero (block : Json) : ℕ := (blockSlot block).getD 0

def blockDedupeKeys (block : Json) : List Text :=
  (if blockHash block = [] then [] else ["hash:".toList ++ blockHash block]) ++
    if 0 < slotOrZero block then ["slot:".toList ++ Text.ofNat (slotOrZero block)] else []

/-- The blocks that share no key with an earlier one. -/
def keepNew (seen : List Text) : List Json → List Json
  | [] => []
  | block :: blocks =>
    if ∃ key ∈ blockDedupeKeys block, key ∈ seen then keepNew seen blocks
    else block :: keepNew (blockDedupeKeys block ++ seen) blocks

def dedupeStreamBlocks (blocks : List Json) (limit : ℕ) : List Json :=
  ((keepNew [] blocks).mergeSort fun a b => slotOrZero b ≤ slotOrZero a).take limit

/-! ### The snapshot -/

def validateBlockchainSlotRange (slotFrom slotTo : ℕ) : Except String Unit := do
  reject (slotTo < slotFrom) "slot_from must be less than or equal to slot_to"
  reject (2001 ≤ slotTo - slotFrom) "slot range cannot contain more than 2001 slots"

/-- What the node answers to the requests of a snapshot: the text of the range, the blocks of the
older interface that stand in for it, and the text of the stream. -/
structure LiveBlocksAnswers where
  range : Except String Text
  legacy : Except String Json
  stream : Except String Text

/-- The report before its blocks are deduplicated. -/
def gatherLiveBlocks (endpoint : Text) (slotFrom slotTo : ℕ) (answers : LiveBlocksAnswers) :
    Except String BlockchainLiveBlocksReport := do
  validateBlockchainSlotRange slotFrom slotTo
  let report ← match answers.range with
    | .ok text => do
      let report ← parseBlockStreamResponse parser text
      pure { report with endpoint, source := "blocks_range".toList }
    | .error cause => do
      let blocks ← answers.legacy.mapError fun _ => "live blocks_range failed: " ++ cause
      pure ⟨endpoint, "range_fallback".toList, blocks.asArray?.getD [], []⟩
  match answers.stream with
  | .error _ => return report
  | .ok text =>
    match parseBlockStreamResponse parser text with
    | .ok stream =>
      return { report with
        blocks := report.blocks ++ stream.blocks
        unknownEvents := report.unknownEvents ++ stream.unknownEvents
        source := report.source ++ "+stream".toList }
    | .error e =>
      return { report with
        unknownEvents := report.unknownEvents ++ [.ofMap (.ofFields [
          ("source".toList, .string "cryptarchia/events/blocks/stream".toList),
          ("error".toList, .string e.toList), ("raw".toList, .string (responseExcerpt text))])] }

def clampLimit (limit : ℕ) : ℕ := max 1 (min limit 500)

def blockchainLiveBlocksSnapshot (endpoint : Text) (slotFrom slotTo limit : ℕ)
    (answers : LiveBlocksAnswers) : Except String BlockchainLiveBlocksReport := do
  let report ← gatherLiveBlocks parser endpoint slotFrom slotTo answers
  return { report with blocks := dedupeStreamBlocks report.blocks (clampLimit limit) }

/-! ### What a snapshot is -/

/-- Two blocks that stand for one: they have one id, or are both of one slot above zero. -/
def Competes (a b : Json) : Prop :=
  blockHash a = blockHash b ∨ 0 < slotOrZero a ∧ slotOrZero a = slotOrZero b

/-- **The distinct blocks of a list**: no two of them compete, and every block of the list is one of
them or competes with one before it. -/
structure DistinctBlocks (blocks distinct : List Json) : Prop where
  sublist : distinct <+ blocks
  apart : distinct.Pairwise fun a b => ¬ Competes a b
  stand : ∀ before block after, blocks = before ++ block :: after →
    block ∈ distinct ∨ ∃ first ∈ distinct, first ∈ before ∧ Competes first block

/-- **No distinct block is lost**: none is shown twice, all are shown if the limit allows it, and
else as many as it allows, those of the highest slots. -/
structure ShowsDistinct (limit : ℕ) (distinct shown : List Json) : Prop where
  nodup : (shown.map blockHash).Nodup
  subset : shown ⊆ distinct
  all : distinct.length ≤ limit → distinct ⊆ shown
  highest : limit < distinct.length → shown.length = limit ∧
    ∀ block ∈ distinct, block ∉ shown → ∀ other ∈ shown, slotOrZero block ≤ slotOrZero other

variable {parser} {seen : List Text} {blocks : List Json} {limit : ℕ}

/-! ### What the first pass keeps -/

/-- Blocks with ids compete if and only if they share a key. -/
theorem competes_iff {a b : Json} (ha : blockHash a ≠ []) (hb : blockHash b ≠ []) :
    Competes a b ↔ ∃ key ∈ blockDedupeKeys a, key ∈ blockDedupeKeys b := by
  have hdigits : Function.Injective Text.ofNat := fun m n h => by
    simpa [Text.ofNat, Nat.ofDigitChars_toDigits] using congrArg (Nat.ofDigitChars 10 · 0) h
  unfold Competes blockDedupeKeys
  rw [if_neg ha, if_neg hb]
  by_cases hpos : 0 < slotOrZero a
  · by_cases hpos' : 0 < slotOrZero b
    · simp [hpos, hpos', hdigits.eq_iff]
    · have hne : slotOrZero a ≠ slotOrZero b := fun heq => hpos' (heq ▸ hpos)
      simp [hpos, hpos', hne, eq_comm]
  · simp [hpos]

theorem keepNew_sublist : keepNew seen blocks <+ blocks := by
  fun_induction keepNew with
  | case1 => exact .slnil
  | case2 _ _ _ _ ih => exact ih.cons _
  | case3 _ _ _ _ ih => exact ih.cons_cons _

/-- The keys of what is kept are new, and no two of the blocks compete. -/
theorem keepNew_apart (hids : ∀ b ∈ blocks, blockHash b ≠ []) :
    (keepNew seen blocks).Pairwise (fun a b => ¬ Competes a b) ∧
      ∀ b ∈ keepNew seen blocks, ∀ key ∈ blockDedupeKeys b, key ∉ seen := by
  fun_induction keepNew with
  | case1 => simp
  | case2 _ _ _ _ ih => exact ih (forall_mem_cons.1 hids).2
  | case3 _ block _ hnew ih =>
    obtain ⟨hid, hids⟩ := forall_mem_cons.1 hids
    obtain ⟨hapart, hfresh⟩ := ih hids
    refine ⟨pairwise_cons.2 ⟨fun b hb hcompetes => ?_, hapart⟩,
      forall_mem_cons.2 ⟨fun key hkey hseen => hnew ⟨key, hkey, hseen⟩,
        fun b hb key hkey hseen => ?_⟩⟩
    · have hid' := hids b (keepNew_sublist.subset hb)
      obtain ⟨key, hkey, hkey'⟩ := (competes_iff hid hid').1 hcompetes
      exact hfresh b hb key hkey' (mem_append_left _ hkey)
    · exact hfresh b hb key hkey (mem_append_right _ hseen)

/-- What is not kept shares a key with what was seen, or competes with a block that is kept. -/
theorem keepNew_stand (hids : ∀ b ∈ blocks, blockHash b ≠ [])
    {before after : List Json} {block : Json}
    (heq : blocks = before ++ block :: after) :
    block ∈ keepNew seen blocks ∨ (∃ key ∈ blockDedupeKeys block, key ∈ seen) ∨
      ∃ first ∈ keepNew seen blocks, first ∈ before ∧ Competes first block := by
  fun_induction keepNew generalizing before with
  | case1 => simp at heq
  | case2 _ _ _ hold ih =>
    obtain ⟨-, hids⟩ := forall_mem_cons.1 hids
    rcases cons_eq_append_iff.1 heq with ⟨rfl, hhead⟩ | ⟨before, rfl, htail⟩
    · cases hhead
      exact .inr (.inl hold)
    · rcases ih hids htail with hkept | hseen | ⟨first, hfirst, hbefore, hcompetes⟩
      · exact .inl hkept
      · exact .inr (.inl hseen)
      · exact .inr (.inr ⟨first, hfirst, mem_cons_of_mem _ hbefore, hcompetes⟩)
  | case3 _ head _ hnew ih =>
    obtain ⟨hid, hids'⟩ := forall_mem_cons.1 hids
    rcases cons_eq_append_iff.1 heq with ⟨rfl, hhead⟩ | ⟨before, rfl, htail⟩
    · cases hhead
      exact .inl mem_cons_self
    · rcases ih hids' htail with hkept | ⟨key, hkey, hseen⟩ | ⟨first, hfirst, hbefore, hcompetes⟩
      · exact .inl (mem_cons_of_mem _ hkept)
      · rcases mem_append.1 hseen with hshared | hseen
        · have hblock := hids block (by simp [heq])
          exact .inr (.inr ⟨head, mem_cons_self, mem_cons_self,
            (competes_iff hid hblock).2 ⟨key, hshared, hkey⟩⟩)
        · exact .inr (.inl ⟨key, hkey, hseen⟩)
      · exact .inr (.inr ⟨first, mem_cons_of_mem _ hfirst, mem_cons_of_mem _ hbefore, hcompetes⟩)

theorem distinctBlocks_keepNew (hids : ∀ b ∈ blocks, blockHash b ≠ []) :
    DistinctBlocks blocks (keepNew [] blocks) where
  sublist := keepNew_sublist
  apart := (keepNew_apart hids).1
  stand _ _ _ heq := (keepNew_stand hids heq).imp_right fun h => h.resolve_left (by simp)

/-! ### What the limit leaves -/

/-- The first elements of the list, sorted downwards by slot, are those of the highest slots. -/
theorem showsDistinct_dedupeStreamBlocks (hids : ∀ b ∈ blocks, blockHash b ≠ []) :
    ShowsDistinct limit (keepNew [] blocks) (dedupeStreamBlocks blocks limit) := by
  set sorted := (keepNew [] blocks).mergeSort fun a b => slotOrZero b ≤ slotOrZero a with hsorted
  have hperm : sorted ~ keepNew [] blocks := mergeSort_perm _ _
  have hdown : (sorted.take limit ++ sorted.drop limit).Pairwise
      fun a b => slotOrZero b ≤ slotOrZero a := by
    rw [take_append_drop]
    simpa using @pairwise_mergeSort _ (fun a b => decide (slotOrZero b ≤ slotOrZero a))
      (fun _ _ _ => by simpa using fun h₁ h₂ => h₂.trans h₁)
      (fun a b => by simpa using le_total _ _) (keepNew [] blocks)
  have hnodup : ((keepNew [] blocks).map blockHash).Nodup :=
    pairwise_map.2 ((keepNew_apart hids).1.imp fun h heq => h (.inl heq))
  refine ⟨?_, fun b hb => hperm.mem_iff.1 (mem_of_mem_take hb), fun hle b hb => ?_,
    fun hlt => ⟨?_, fun b hb hmissing other hother => ?_⟩⟩
  · exact (((hperm.map _).nodup_iff).2 hnodup).sublist ((take_sublist _ _).map _)
  · rw [dedupeStreamBlocks, take_of_length_le (hperm.length_eq ▸ hle)]
    exact hperm.mem_iff.2 hb
  · rw [dedupeStreamBlocks, length_take, hperm.length_eq, min_eq_left hlt.le]
  · have hsplit := hperm.mem_iff.2 hb
    rw [← take_append_drop limit sorted] at hsplit
    exact (pairwise_append.1 hdown).2.2 other hother b
      ((mem_append.1 hsplit).resolve_left hmissing)

/-- A node that answers with two competing blocks of slot 7. -/
def forked : JsonParser := fun _ => .ok (.array (["a", "b"].map fun id =>
  .ofMap (.ofFields [("header".toList, .ofMap (.ofFields
    [("id".toList, .string id.toList), ("slot".toList, .number (.posInt 7))]))])))

def forkedAnswers : LiveBlocksAnswers := ⟨.ok "[]".toList, .error "", .error ""⟩

end LogosInspector.Blockchain
