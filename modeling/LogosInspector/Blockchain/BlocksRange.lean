import LogosInspector.Json
import LogosInspector.Result

/-!
# The blocks of a finalized range

A node answers a range query with its blocks, as a JSON array or with one value a line. A value is
a block itself or an event that wraps one, with the slots of the tip and of the last irreversible
block (the LIB) at that time. The program puts what it derives from an event into the field
`_chain` of the block, drops the blocks that it takes for provisional, and labels the rest
finalized.

A wrapped block above the LIB gets the status `pending` only if the event also states a tip that
is not below it; otherwise its status is empty and it passes for finalized. That this is the only
way in which a provisional block gets through is `blocks_range_finalized_iff`.
-/

namespace LogosInspector

open List Option

/-- The value with a field set, if it is an object. -/
def Json.setField (value : Json) (name : Text) (field : Json) : Json :=
  match value.asMap? with
  | some m => .ofMap (m.set name field)
  | none => value

namespace Blockchain

/-- `serde_json::from_str`, which is not this program's code. -/
abbrev JsonParser := Text → Except String Json

variable (parser : JsonParser)

/-! ### The events of a response -/

def responseExcerpt (text : Text) : Text := text.take 400

def parseEventLine (line : Text × ℕ) : Except String Json :=
  (parser line.1).mapError fun e => "invalid blocks_range event on line " ++
    (Text.ofNat (line.2 + 1)).toMessage ++ ": " ++ (responseExcerpt line.1).toMessage ++ ": " ++ e

/-- The events of a response text, as `parse_blocks_range_response` reads them. -/
def rangeEvents (text : Text) : Except String (List Json) :=
  if text.trim = [] then return []
  else if text.trim.head? = some '[' then do
    let value ← (parser text.trim).mapError fun e => "invalid JSON response: " ++
      (responseExcerpt text.trim).toMessage ++ ": " ++ e
    required value.asArray? ("invalid JSON response: " ++ (responseExcerpt text.trim).toMessage)
  else
    (((text.splitOn '\n').map Text.trim).zipIdx.filter (·.1 ≠ [])).mapM (parseEventLine parser)

/-! ### The block of an event -/

/-- The block in a field: an object, or the text of one with a header. -/
def blockPayloadValue : Json → Option Json
  | .object fields => some (.object fields)
  | .string text =>
    match parser text with
    | .ok value => if (value.field? "header".toList).isSome then some value else none
    | .error _ => none
  | _ => none

/-- A field, or `null`. -/
def fieldOrNull (event : Json) (name : String) : Json := (event.field? name.toList).getD .null

def headerField (block : Json) (name : String) : Option Json := do
  let header ← block.field? "header".toList
  let fields ← header.asMap?
  fields.get? name.toList

def blockSlot (block : Json) : Option ℕ := (headerField block "slot").bind Json.asU64?

def statedSlot (event : Json) (name : String) : Option ℕ := (fieldOrNull event name).asU64?

def chainStatus (slot libSlot tipSlot : Option ℕ) : Text :=
  match slot with
  | none => []
  | some slot =>
    if libSlot.any (slot ≤ ·) then "finalized".toList
    else if tipSlot.any (slot ≤ ·) then "pending".toList
    else []

def chainStateForBlock (block event : Json) : Json :=
  let hash := (((headerField block "id").or (headerField block "hash")).bind Json.asStr?).getD []
  let isAt (name : String) : Bool :=
    hash ≠ [] ∧ hash = ((fieldOrNull event name).asStr?).getD []
  .ofMap (.ofFields [
    ("tip".toList, fieldOrNull event "tip"), ("tip_slot".toList, fieldOrNull event "tip_slot"),
    ("lib".toList, fieldOrNull event "lib"), ("lib_slot".toList, fieldOrNull event "lib_slot"),
    ("status".toList, .string (chainStatus (blockSlot block) (statedSlot event "lib_slot")
      (statedSlot event "tip_slot"))),
    ("is_tip".toList, .bool (isAt "tip")), ("is_lib".toList, .bool (isAt "lib"))])

/-- A value that is a block itself. -/
def IsBare (event : Json) : Prop :=
  event.field? "block".toList = none ∧ (event.field? "header".toList).isSome

instance (event : Json) : Decidable (IsBare event) := by unfold IsBare; infer_instance

/-- The block as the response has it. -/
def payload? (event : Json) : Option Json :=
  if IsBare event then some event
  else (event.field? "block".toList).bind (blockPayloadValue parser)

def blockFromProcessedEvent (event : Json) : Except String Json := do
  let block ← required (payload? parser event) "blocks_range event did not include a block object"
  if IsBare event then return block
  return block.setField "_chain".toList (chainStateForBlock block event)

/-! ### The filter -/

def finalized : Json := .string "finalized".toList

def isProvisional (status : Option Text) : Bool :=
  status = some "pending".toList ∨ status = some "orphaned".toList

/-- The status of a block in its own fields. -/
def payloadStatus (block : Json) : Option Text :=
  ((block.field? "bedrock_status".toList).bind Json.asStr?).or
    ((block.field? "status".toList).bind Json.asStr?)

def chainFieldStatus (block : Json) : Option Text :=
  ((block.field? "_chain".toList).bind (·.field? "status".toList)).bind Json.asStr?

/-- The value with a field relabelled, if it is there. -/
def relabel (block : Json) (name : Text) : Json :=
  if (block.field? name).isSome then block.setField name finalized else block

def relabelChain (block : Json) : Json :=
  let chain := ((block.field? "_chain".toList).bind Json.asMap?).getD .empty
  block.setField "_chain".toList (.ofMap (chain.set "status".toList finalized))

def finalizedBlockFromRange (block : Json) : Option Json :=
  if isProvisional (payloadStatus block) ∨ isProvisional (chainFieldStatus block) then none
  else some (relabelChain (relabel (relabel block "bedrock_status".toList) "status".toList))

def normalizeProcessedBlocksRange (events : List Json) : Except String (List Json) :=
  events.mapM (blockFromProcessedEvent parser)

def parseBlocksRangeResponse (text : Text) : Except String (List Json) := do
  normalizeProcessedBlocksRange parser (← rangeEvents parser text)

def normalizeFinalizedBlocksRange (events : List Json) : Except String (List Json) := do
  return (← normalizeProcessedBlocksRange parser events).filterMap finalizedBlockFromRange

/-- The blocks are normalized twice. -/
def parseFinalizedBlocksRangeResponse (text : Text) : Except String (List Json) := do
  normalizeFinalizedBlocksRange parser (← parseBlocksRangeResponse parser text)

/-! ### What a finalized view is -/

/-- A returned block is the one of the response, but for its labels. -/
structure ReturnedAs (block returned : Json) : Prop where
  same : ∀ name ∉ ["bedrock_status".toList, "status".toList, "_chain".toList],
    returned.field? name = block.field? name
  labelled : ∀ name ∈ ["bedrock_status".toList, "status".toList],
    returned.field? name = (block.field? name).map fun _ => finalized
  chain : (returned.field? "_chain".toList).bind (·.field? "status".toList) = some finalized

/-- The event states a LIB below its block. -/
def AboveLib (event block : Json) : Prop :=
  ¬ IsBare event ∧ ∃ slot ∈ blockSlot block, ∃ lib ∈ statedSlot event "lib_slot", lib < slot

/-- The response shows that the block is not final. -/
def ShownProvisional (event block : Json) : Prop :=
  AboveLib event block ∨ isProvisional (payloadStatus block) = true ∨
    IsBare event ∧ isProvisional (chainFieldStatus block) = true

/-- The response shows that the block is final. -/
def ShownFinal (event block : Json) : Prop :=
  ¬ IsBare event ∧ (∃ slot ∈ blockSlot block, ∃ lib ∈ statedSlot event "lib_slot", slot ≤ lib) ∧
    isProvisional (payloadStatus block) = false

/-- What is returned for an event. -/
def returnedBlock (event : Json) : Option Json :=
  (blockFromProcessedEvent parser event).toOption.bind finalizedBlockFromRange

/-- **A finalized view of a response**: for each event at most one block, in their order; no block
that is shown to be provisional, every one that is shown to be final, and all relabelled. -/
structure IsFinalizedView (events returned : List Json) : Prop where
  order : returned = events.filterMap (returnedBlock parser)
  dropped : ∀ event ∈ events, ∀ block ∈ payload? parser event,
    ShownProvisional event block → returnedBlock parser event = none
  kept : ∀ event ∈ events, ∀ block ∈ payload? parser event,
    ShownFinal event block → (returnedBlock parser event).isSome
  relabelled : ∀ event ∈ events, ∀ block ∈ payload? parser event,
    ∀ returned ∈ returnedBlock parser event, ReturnedAs block returned

/-- The event states a LIB below its block, but no tip that the block is not above, and the block
itself says nothing. -/
def IsUnnoticed (event block : Json) : Prop :=
  AboveLib event block ∧ isProvisional (payloadStatus block) = false ∧
    ∀ slot ∈ blockSlot block, ∀ tip ∈ statedSlot event "tip_slot", tip < slot

variable {parser}

/-! ### Fields that are set -/

section Fields

variable {value block event : Json} {name other : Text} {field : Json} {m : JsonMap}

theorem asMap?_setField :
    (value.setField name field).asMap? = value.asMap?.map (·.set name field) := by
  unfold Json.setField
  cases h : value.asMap? with
  | none => exact h
  | some m => simp

section

variable (h : value.asMap?.isSome)

include h

theorem field?_setField : (value.setField name field).field? other =
      if other = name then some field else value.field? other := by
  obtain ⟨_, hm⟩ := isSome_iff_exists.1 h
  simp [Json.field?, asMap?_setField, hm, JsonMap.get?_set]

theorem isSome_asMap?_setField : (value.setField name field).asMap?.isSome := by
  simpa [asMap?_setField] using h

theorem isSome_asMap?_relabel : (relabel value name).asMap?.isSome := by
  unfold relabel
  split_ifs
  · exact isSome_asMap?_setField h
  · exact h

theorem field?_relabel : (relabel value name).field? other =
      if other = name then (value.field? name).map fun _ => finalized else value.field? other := by
  unfold relabel
  cases hfield : value.field? name with
  | some _ => simp [field?_setField h]
  | none => by_cases hname : other = name <;> simp [hname, hfield]

end

theorem isSome_asMap?_of_field? (h : (value.field? name).isSome) : value.asMap?.isSome := by
  cases hm : value.asMap? with
  | none => simp [Json.field?, hm] at h
  | some _ => rfl

/-- The block of an event is an object. -/
theorem isSome_asMap?_of_payload? (h : payload? parser event = some block) :
    block.asMap?.isSome := by
  unfold payload? at h
  split_ifs at h with hbare
  · cases h
    exact isSome_asMap?_of_field? hbare.2
  · obtain ⟨_, -, hval⟩ := bind_eq_some_iff.1 h
    unfold blockPayloadValue at hval
    split at hval
    · cases hval
      rfl
    · split at hval
      · split_ifs at hval with hh
        cases hval
        exact isSome_asMap?_of_field? hh
      · cases hval
    · cases hval

/-- What is returned differs from the block in the labels only. -/
theorem returnedAs_relabel (hval : value.asMap?.isSome)
    (hs : ∀ name ≠ "_chain".toList, value.field? name = block.field? name) :
    ReturnedAs block
      (relabelChain (relabel (relabel value "bedrock_status".toList) "status".toList)) := by
  have hfirst : (relabel value "bedrock_status".toList).asMap?.isSome := isSome_asMap?_relabel hval
  have hsecond : (relabel (relabel value "bedrock_status".toList) "status".toList).asMap?.isSome :=
    isSome_asMap?_relabel hfirst
  constructor
  · intro name hname
    simp only [mem_cons, not_mem_nil, or_false, not_or] at hname
    rw [relabelChain, field?_setField hsecond, if_neg hname.2.2, field?_relabel hfirst,
      if_neg hname.2.1, field?_relabel hval, if_neg hname.1, hs name hname.2.2]
  · simp only [mem_cons, not_mem_nil, or_false, forall_eq_or_imp, forall_eq]
    constructor
    · rw [relabelChain, field?_setField hsecond, if_neg (by decide), field?_relabel hfirst,
        if_neg (by decide), field?_relabel hval, if_pos rfl, hs _ (by decide)]
    · rw [relabelChain, field?_setField hsecond, if_neg (by decide), field?_relabel hfirst,
        if_pos rfl, field?_relabel hval, if_neg (by decide), hs _ (by decide)]
  · rw [relabelChain, field?_setField hsecond, if_pos rfl, bind_some, Json.field?_ofMap,
      JsonMap.get?_set_self]

end Fields

/-! ### Which events are kept -/

section Kept

variable {event block value : Json} {events returned : List Json} {text : Text}

/-- The status that the filter finds in the field `_chain`. -/
def statusInChain (event block : Json) : Option Text :=
  if IsBare event then chainFieldStatus block
  else some (chainStatus (blockSlot block) (statedSlot event "lib_slot")
    (statedSlot event "tip_slot"))

/-- A block that is an event itself is processed to itself. -/
theorem blockFromProcessedEvent_of_isBare (h : IsBare event) :
    blockFromProcessedEvent parser event = .ok event := by
  simp only [blockFromProcessedEvent, payload?, if_pos h]
  rfl

/-- What a processed event is, for the filter. -/
theorem blockFromProcessedEvent_ok (h : blockFromProcessedEvent parser event = .ok value) :
    ∃ block, payload? parser event = some block ∧ value.asMap?.isSome ∧
      (∀ name ≠ "_chain".toList, value.field? name = block.field? name) ∧
      chainFieldStatus value = statusInChain event block := by
  obtain ⟨block, hblk, h⟩ := bind_eq_ok.1 h
  have hblk := required_eq_ok.1 hblk
  have hmap := isSome_asMap?_of_payload? hblk
  refine ⟨block, hblk, ?_⟩
  split_ifs at h with hbare
  all_goals obtain rfl := pure_eq_ok.1 h
  · exact ⟨hmap, fun _ _ => rfl, by rw [statusInChain, if_pos hbare]⟩
  · refine ⟨isSome_asMap?_setField hmap, fun _ hname => ?_, ?_⟩
    · rw [field?_setField hmap, if_neg hname]
    · rw [statusInChain, if_neg hbare, chainFieldStatus, field?_setField hmap, if_pos rfl]
      -- the status is the fifth of seven fields with different names
      simp [chainStateForBlock, JsonMap.ofFields, JsonMap.get?_set, Json.asStr?]

/-- A processed event is a block itself, if the block in it is. -/
theorem isBare_of_blockFromProcessedEvent (h : blockFromProcessedEvent parser event = .ok value)
    (hbare : ∀ block ∈ payload? parser event, IsBare block) : IsBare value := by
  obtain ⟨block, hblock, -, hsame, -⟩ := blockFromProcessedEvent_ok h
  rw [IsBare, hsame _ (by decide), hsame _ (by decide)]
  exact hbare block hblock

/-- What is returned for an event: nothing, if one of the two statuses is provisional, and else
its block with other labels. -/
theorem returnedBlock_cases (h : ∃ value, blockFromProcessedEvent parser event = .ok value)
    (hpayload : block ∈ payload? parser event) :
    (isProvisional (payloadStatus block) = true ∨
        isProvisional (statusInChain event block) = true) ∧ returnedBlock parser event = none ∨
      (isProvisional (payloadStatus block) = false ∧
        isProvisional (statusInChain event block) = false) ∧
      ∃ returned, returnedBlock parser event = some returned ∧ ReturnedAs block returned := by
  obtain ⟨value, h⟩ := h
  obtain ⟨block, hblk, hmap, hs, hchain⟩ := blockFromProcessedEvent_ok h
  obtain rfl := mem_unique hpayload hblk
  have hstatus : payloadStatus value = payloadStatus block := by
    rw [payloadStatus, hs _ (by decide), hs _ (by decide), payloadStatus]
  have hret : returnedBlock parser event = finalizedBlockFromRange value := by
    rw [returnedBlock, h]
    rfl
  rw [hret, finalizedBlockFromRange, hstatus, hchain]
  split_ifs with hp
  · exact .inl ⟨hp, rfl⟩
  · rw [not_or, Bool.not_eq_true, Bool.not_eq_true] at hp
    exact .inr ⟨hp, _, rfl, returnedAs_relabel hmap hs⟩

theorem isProvisional_chainStatus {slot libSlot tipSlot : Option ℕ} :
    isProvisional (some (chainStatus slot libSlot tipSlot)) = true ↔
      (∃ n ∈ slot, ∃ tip ∈ tipSlot, n ≤ tip) ∧ ¬ ∃ n ∈ slot, ∃ lib ∈ libSlot, n ≤ lib := by
  have hempty : isProvisional (some []) = false := by decide
  have hfin : isProvisional (some "finalized".toList) = false := by decide
  have hp : isProvisional (some "pending".toList) = true := by decide
  rcases slot with _ | slot
  · simp [chainStatus, hempty]
  · simp only [chainStatus, Option.any_eq_true, decide_eq_true_eq, Option.mem_def,
      Option.some.injEq, exists_eq_left']
    split_ifs with hlib htip
    · exact iff_of_false (hfin ▸ Bool.false_ne_true) fun h => h.2 hlib
    · exact iff_of_true hp ⟨htip, hlib⟩
    · exact iff_of_false (hempty ▸ Bool.false_ne_true) fun h => htip h.1

/-- A wrapped block that the filter finds nothing against, though its event states a LIB below
it, is unnoticed. -/
theorem isUnnoticed_of_not_provisional (habove : AboveLib event block)
    (hp : isProvisional (payloadStatus block) = false)
    (hchain : isProvisional (statusInChain event block) = false) : IsUnnoticed event block := by
  refine ⟨habove, hp, fun slot hslot tip htip => ?_⟩
  obtain ⟨hw, _, hn, _, hlib, _⟩ := habove
  by_contra hle
  rw [statusInChain, if_neg hw, ← Bool.not_eq_true, isProvisional_chainStatus] at hchain
  refine hchain ⟨⟨slot, hslot, tip, htip, not_lt.1 hle⟩, ?_⟩
  rintro ⟨_, hn', _, hlib', _⟩
  -- both are the one slot of the block and the one LIB of the event
  obtain rfl := mem_unique hn hn'
  obtain rfl := mem_unique hlib hlib'
  omega

theorem not_provisional_of_isUnnoticed (h : IsUnnoticed event block) :
    isProvisional (statusInChain event block) = false := by
  obtain ⟨⟨hw, -⟩, -, htips⟩ := h
  rw [statusInChain, if_neg hw, ← Bool.not_eq_true, isProvisional_chainStatus]
  rintro ⟨⟨slot, hslot, tip, htip, hle⟩, -⟩
  exact (htips slot hslot tip htip).not_ge hle

theorem not_provisional_of_shownFinal (h : ShownFinal event block) :
    isProvisional (statusInChain event block) = false := by
  obtain ⟨hw, hfin, -⟩ := h
  rw [statusInChain, if_neg hw, ← Bool.not_eq_true, isProvisional_chainStatus]
  exact fun hp => hp.2 hfin

theorem filterMap_returnedBlock (h : List.Forall₂ (fun event value =>
      blockFromProcessedEvent parser event = .ok value) events returned) :
    returned.filterMap finalizedBlockFromRange = events.filterMap (returnedBlock parser) ∧
      ∀ event ∈ events, ∃ value, blockFromProcessedEvent parser event = .ok value := by
  induction h with
  | nil => simp
  | @cons event value _ _ hval _ ih =>
    have hret : returnedBlock parser event = finalizedBlockFromRange value := by
      rw [returnedBlock, hval]
      rfl
    exact ⟨by rw [filterMap_cons, filterMap_cons, hret, ih.1],
      forall_mem_cons.2 ⟨⟨value, hval⟩, ih.2⟩⟩

/-- The second normalization changes nothing, if the blocks have headers and wrap no block. -/
theorem normalize_again {blocks : List Json} (h : List.Forall₂ (fun event value =>
      blockFromProcessedEvent parser event = .ok value) events blocks)
    (hbare : ∀ event ∈ events, ∀ block ∈ payload? parser event, IsBare block) :
    normalizeProcessedBlocksRange parser blocks = .ok blocks := by
  refine mapM_eq_ok.2 ?_
  induction h with
  | nil => exact .nil
  | cons hvalue _ ih =>
    obtain ⟨hfirst, hbare⟩ := forall_mem_cons.1 hbare
    have hvalue := isBare_of_blockFromProcessedEvent hvalue hfirst
    exact .cons (blockFromProcessedEvent_of_isBare hvalue) (ih hbare)

/-- **When a finalized range has no provisional block.** What is returned for a response whose
blocks have headers and no field `block` is a finalized view of its events, if and only if none of
them states a LIB below its block without a tip that shows the block to be pending. -/
theorem blocks_range_finalized_iff
    (h : parseFinalizedBlocksRangeResponse parser text = .ok returned)
    (hbare : ∀ events, rangeEvents parser text = .ok events →
      ∀ event ∈ events, ∀ block ∈ payload? parser event, IsBare block) :
    ∃ events, rangeEvents parser text = .ok events ∧ (IsFinalizedView parser events returned ↔
        ∀ event ∈ events, ∀ block ∈ payload? parser event, ¬ IsUnnoticed event block) := by
  obtain ⟨_, hparse, h⟩ := bind_eq_ok.1 h
  obtain ⟨events, hevents, hblocks⟩ := bind_eq_ok.1 hparse
  obtain ⟨_, hagain, h⟩ := bind_eq_ok.1 h
  obtain rfl := pure_eq_ok.1 h
  have hblocks := mapM_eq_ok.1 hblocks
  rw [normalize_again hblocks (hbare events hevents)] at hagain
  cases hagain
  obtain ⟨horder, hread⟩ := filterMap_returnedBlock hblocks
  refine ⟨events, hevents, fun hview event hevent block hblock hunnoticed => ?_, fun hall =>
    ⟨horder, ?_, ?_, ?_⟩⟩
  · have hnone := hview.dropped event hevent block hblock (.inl hunnoticed.1)
    rcases returnedBlock_cases (hread event hevent) hblock with ⟨hprovisional, -⟩ | ⟨-, _, hsome, -⟩
    · simp [hunnoticed.2.1, not_provisional_of_isUnnoticed hunnoticed] at hprovisional
    · cases hnone.symm.trans hsome
  · intro event hevent block hblock hshown
    rcases returnedBlock_cases (hread event hevent) hblock with ⟨-, hnone⟩ | ⟨⟨hpayload, hchain⟩, -⟩
    · exact hnone
    · rcases hshown with habove | hprovisional | ⟨hbare, hprovisional⟩
      · exact absurd (isUnnoticed_of_not_provisional habove hpayload hchain)
          (hall event hevent block hblock)
      · simp [hpayload] at hprovisional
      · simp [statusInChain, hbare, hprovisional] at hchain
  · intro event hevent block hblock hfinal
    rcases returnedBlock_cases (hread event hevent) hblock with ⟨hprovisional, -⟩ | ⟨-, _, hsome, -⟩
    · simp [hfinal.2.2, not_provisional_of_shownFinal hfinal] at hprovisional
    · simp [hsome]
  · intro event hevent _ hblock _ hreturned
    rcases returnedBlock_cases (hread event hevent) hblock with ⟨-, hnone⟩ | ⟨-, _, hsome, has⟩
    · cases hnone.symm.trans hreturned
    · obtain rfl := mem_unique hsome hreturned
      exact has

end Kept

/-! ### A response with a provisional block -/

namespace Sample

/-- An event with a LIB at slot 1 and a block at slot 2, and no tip. -/
def event : Json := .object [("block".toList, .object
      [("header".toList, .object [("slot".toList, .number (.posInt 2))])]),
    ("lib_slot".toList, .number (.posInt 1))]

def text : Text := ("[\x7b\"block\":\x7b\"header\":\x7b\"slot\":2\x7d\x7d," ++
  "\"lib_slot\":1\x7d]").toList

/-- A parser, at the one text. -/
def parseSample : JsonParser := fun t =>
  if t = text then .ok (.array [event]) else .error "not parsed"

def returned : Json := .object [("_chain".toList, .object
      [("is_lib".toList, .bool false), ("is_tip".toList, .bool false), ("lib".toList, .null),
        ("lib_slot".toList, .number (.posInt 1)), ("status".toList, finalized),
        ("tip".toList, .null), ("tip_slot".toList, .null)]),
    ("header".toList, .object [("slot".toList, .number (.posInt 2))])]

theorem rangeEvents_text : rangeEvents parseSample text = .ok [event] := by decide +kernel

theorem parse_text : parseFinalizedBlocksRangeResponse parseSample text = .ok [returned] := by
  decide +kernel

/-- The condition, at the response. -/
theorem blocks_range_finalized_iff_sample : ∃ events, rangeEvents parseSample text = .ok events ∧
      (IsFinalizedView parseSample events [returned] ↔
        ∀ event ∈ events, ∀ block ∈ payload? parseSample event, ¬ IsUnnoticed event block) :=
  blocks_range_finalized_iff parse_text fun events hevents => by
    obtain rfl := Except.ok.inj (rangeEvents_text.symm.trans hevents)
    decide +kernel

/-- **A provisional block is returned as finalized.** Its event states that the LIB is below it. -/
theorem blocks_range_not_finalized :
    parseFinalizedBlocksRangeResponse parseSample text = .ok [returned] ∧
      rangeEvents parseSample text = .ok [event] ∧
      ¬ IsFinalizedView parseSample [event] [returned] := by
  refine ⟨parse_text, rangeEvents_text, fun hview => ?_⟩
  have hblock : payload? parseSample event =
      some (.object [("header".toList, .object [("slot".toList, .number (.posInt 2))])]) := by
    decide +kernel
  have hwrapped : ¬ IsBare event := by decide +kernel
  have hnone := hview.dropped event (mem_singleton_self _) _ hblock
    (.inl ⟨hwrapped, 2, by decide +kernel, 1, by decide +kernel, by decide⟩)
  have hsome : returnedBlock parseSample event = some returned := by decide +kernel
  cases hnone.symm.trans hsome

end Sample

end Blockchain

end LogosInspector
