import LogosInspector.Catalog.Evidence

/-!
# What is read is well formed

Two parsers stand before the engine. `parseBlock` makes a block of what a source serves, and
rejects one whose ids are not canonical; every block of the program is made by it.
`decodeBlockChannelOperations` lists the channel operations of a block.

What they guarantee – canonical ids, valid local text, small indices – is what the store
checks of the records that the engine makes: the ids of evidence and of segments made from
such parts pass the checks of the store (`evidenceOk_of_mem`, `isLocalId_segmentIdForFloor`).
-/

namespace LogosInspector

open List

/-! ### Plain text -/

namespace Text

/-- Text of printable ASCII characters. -/
def IsPlain (t : Text) : Prop := ∀ c ∈ t, 0x20 ≤ c.toNat ∧ c.toNat < 0x7f

variable {t : Text}

/-- The characters of a given text are checked one by one. -/
theorem isPlain_of_all (h : t.all fun c => 0x20 ≤ c.toNat ∧ c.toNat < 0x7f) :
    IsPlain t := fun c hc => of_decide_eq_true (all_eq_true.1 h c hc)

theorem IsPlain.append {u : Text} (ht : IsPlain t) (hu : IsPlain u) : IsPlain (t ++ u) := by
  intro c hc
  rcases mem_append.1 hc with hc | hc
  · exact ht c hc
  · exact hu c hc

theorem utf8Size_of_lt {c : Char} (h : c.toNat < 0x80) : c.utf8Size = 1 := by
  have hval : c.val ≤ 0x7f := by
    rw [UInt32.le_iff_toNat_le]
    change c.toNat ≤ 127
    omega
  simp [Char.utf8Size, hval]

theorem IsPlain.byteLength (h : IsPlain t) : t.byteLength = t.length := by
  induction t with
  | nil => rfl
  | cons c _ ih =>
    obtain ⟨_, ht⟩ := forall_mem_cons.1 h
    have hsize := utf8Size_of_lt (c := c) (by omega)
    have hrest := ih ht
    simp only [Text.byteLength, map_cons, sum_cons, length_cons] at hrest ⊢
    omega

theorem IsPlain.not_control (h : IsPlain t) : t.any isControl = false := by
  rw [any_eq_false]
  intro c hc
  obtain ⟨_, _⟩ := h c hc
  simp only [isControl, Bool.or_eq_true, decide_eq_true_eq, Bool.and_eq_true]
  omega

end Text

namespace Catalog

theorem toNat_le_of_le {a b : Char} (h : a ≤ b) : a.toNat ≤ b.toNat := h

variable {c : Char}

/-- A hexadecimal digit is a printable ASCII character. -/
theorem plain_of_isAsciiHexdigit (h : Text.isAsciiHexdigit c = true) :
    0x20 ≤ c.toNat ∧ c.toNat < 0x7f := by
  simp only [Text.isAsciiHexdigit, Text.isAsciiDigit, Bool.or_eq_true, Bool.and_eq_true,
    decide_eq_true_eq] at h
  rcases h with (⟨hlow, hhigh⟩ | ⟨hlow, hhigh⟩) | ⟨hlow, hhigh⟩
  all_goals
    have hlow' := toNat_le_of_le hlow
    have hhigh' := toNat_le_of_le hhigh
    simp at hlow' hhigh'
    omega

theorem isAsciiHexdigit_of_lower (h : Text.isLowerHexdigit c = true) :
    Text.isAsciiHexdigit c = true := by
  simp only [Text.isLowerHexdigit, Text.isAsciiHexdigit, Bool.or_eq_true] at h ⊢
  exact .inl h

variable {value : Text}

theorem IsHexId.plain (h : IsHexId value) : Text.IsPlain value := fun c hc =>
  plain_of_isAsciiHexdigit (isAsciiHexdigit_of_lower (all_eq_true.1 h.2 c hc))

theorem IsHexId.length_eq (h : IsHexId value) : value.length = 64 :=
  h.plain.byteLength.symm.trans h.1

/-- Short plain text is a local id. -/
theorem isLocalId_of_plain (hplain : Text.IsPlain value) (hne : value ≠ [])
    (hlen : value.length ≤ 256) : IsLocalId value := by
  rintro (hnil | hlong | hcon)
  · exact hne hnil
  · rw [hplain.byteLength] at hlong
    omega
  · rw [hplain.not_control] at hcon
    cases hcon

theorem isLocalId_segmentIdForFloor {floor : CatalogBlockCheckpoint} (h : IsHexId floor.blockId) :
    IsLocalId (segmentIdForFloor floor) := by
  unfold segmentIdForFloor
  have hstart : Text.IsPlain "segment-".toList := Text.isPlain_of_all (by decide)
  refine isLocalId_of_plain (hstart.append h.plain) (by simp) ?_
  rw [length_append, h.length_eq]
  decide

theorem isLowerHexdigit_hexDigit (n : ℕ) : Text.isLowerHexdigit (Text.hexDigit n) = true := by
  have hall : ∀ i < 16, Text.isLowerHexdigit (Text.hexDigit i) = true := by decide
  have hmod : Text.hexDigit n = Text.hexDigit (n % 16) := by simp [Text.hexDigit]
  rw [hmod]
  exact hall _ (Nat.mod_lt n (by decide))

variable {ext : Externals}

/-- The id of a gap is a local id: a digest of SHA-256 has 32 bytes. -/
theorem isLocalId_gapIdForBoundary (hdig : ∀ bytes, (ext.sha256 bytes).length = 32)
    (lower : CatalogBlockReference) (upper : CatalogBlockCheckpoint) :
    IsLocalId (gapIdForBoundary ext lower upper) := by
  unfold gapIdForBoundary
  have hstart : Text.IsPlain "gap-".toList := Text.isPlain_of_all (by decide)
  have henc : ∀ bytes : List UInt8, Text.IsPlain (Text.hexEncode bytes) ∧
      (Text.hexEncode bytes).length = 2 * bytes.length := by
    intro _
    constructor
    · intro _ hc
      obtain ⟨_, -, hb⟩ := mem_flatMap.1 hc
      refine plain_of_isAsciiHexdigit (isAsciiHexdigit_of_lower ?_)
      rcases mem_cons.1 hb with rfl | hb
      · exact isLowerHexdigit_hexDigit _
      · rw [mem_singleton.1 hb]
        exact isLowerHexdigit_hexDigit _
    · rw [Text.hexEncode, length_flatMap]
      simp [Nat.mul_comm]
  refine isLocalId_of_plain (hstart.append (henc _).1) (by simp) ?_
  rw [length_append, (henc _).2, hdig]
  decide

/-! ### Blocks -/

abbrev CatalogL1SourceResult := Except CatalogL1SourceError

def canonicalHexId (value : Text) (label : String) : CatalogL1SourceResult Text := do
  let value := value.trim.toAsciiLowercase
  reject (value.byteLength ≠ 64 ∨ ¬ value.all Text.isAsciiHexdigit = true)
    (.invalidRequest (label ++ " must be 32-byte hexadecimal text"))
  pure value

def requiredHexId (value : Json) (label : String) : CatalogL1SourceResult Text := do
  let text ← required value.asStr? (.invalidResponse (label ++ " is not text"))
  (canonicalHexId text label).mapError fun
    | .invalidRequest detail => .invalidResponse detail
    | other => other

def requiredU64 (value : Json) (label : String) : CatalogL1SourceResult ℕ :=
  required (value.asU64?.or (value.asStr?.bind fun text => parseU64 10 text.trim))
    (.invalidResponse (label ++ " is not an unsigned integer"))

/-- A field of the header of a block, read with `read`. -/
def headerField {α : Type} (header : Json) (field label : String)
    (read : Json → String → CatalogL1SourceResult α) : CatalogL1SourceResult α :=
  match header.get? field with
  | some value => read value label
  | none => throw (.invalidResponse (label ++ " is missing"))

/-- **The block that a source serves.** -/
def parseBlock (value : Json) (label : String) : CatalogL1SourceResult CatalogL1Block := do
  let _ ← required value.asObject? (.invalidResponse (label ++ " block is not an object"))
  let header ← required
    ((value.get? "header").bind fun header => header.asObject?.map fun _ => header)
    (.invalidResponse (label ++ " block header is missing"))
  let _ ← required ((value.get? "transactions").bind Json.asArray?)
    (.invalidResponse (label ++ " block transactions body is missing"))
  let slot ← headerField header "slot" "block header slot" requiredU64
  let blockId ← headerField header "id" "block header id" requiredHexId
  let parentId ← headerField header "parent_block" "block header parent_block" requiredHexId
  pure { checkpoint := { slot, blockId, parentId }, payload := value }

theorem isLowerHexdigit_toLower (h : Text.isAsciiHexdigit c = true) :
    Text.isLowerHexdigit c.toLower = true := by
  have hall : ∀ n < 0x7f, ∀ hn : n.isValidChar, Text.isAsciiHexdigit (Char.ofNatAux n hn) = true →
      Text.isLowerHexdigit (Char.ofNatAux n hn).toLower = true := by decide
  exact hall c.toNat (plain_of_isAsciiHexdigit h).2 c.valid h

/-- A digit that is a letter put in lower case is in lower case. -/
theorem isLowerHexdigit_of_toLower (h : Text.isAsciiHexdigit c.toLower = true) :
    Text.isLowerHexdigit c.toLower = true := by
  have hall : ∀ n < 0x7f, ∀ hn : n.isValidChar,
      Text.isAsciiHexdigit (Char.ofNatAux n hn).toLower = true →
      Text.isLowerHexdigit (Char.ofNatAux n hn).toLower = true := by decide
  by_cases hplain : c.toNat < 0x7f
  · exact hall c.toNat hplain c.valid h
  · -- only ASCII letters change, and no other character is a digit
    have hs : c.toLower = c := by
      refine dif_neg fun hupper => hplain ?_
      have hle : c.toNat ≤ 'Z'.toNat := hupper.2
      exact lt_of_le_of_lt hle (by decide)
    rw [hs] at h
    exact absurd (plain_of_isAsciiHexdigit h).2 hplain

variable {id : Text} {label : String}

theorem canonicalHexId_eq_ok (h : canonicalHexId value label = .ok id) : IsHexId id := by
  simp only [canonicalHexId, bind_eq_ok, exists_unit, reject_eq_ok, not_or, not_not,
    pure_eq_ok] at h
  obtain ⟨⟨hlen, hdig⟩, rfl⟩ := h
  refine ⟨hlen, all_eq_true.2 fun c hc => ?_⟩
  have hdigit := all_eq_true.1 hdig c hc
  obtain ⟨_, -, rfl⟩ := mem_map.1 hc
  exact isLowerHexdigit_of_toLower hdigit

theorem requiredHexId_eq_ok {value : Json} (h : requiredHexId value label = .ok id) :
    IsHexId id := by
  simp only [requiredHexId, bind_eq_ok, mapError_eq_ok] at h
  obtain ⟨_, -, hid⟩ := h
  exact canonicalHexId_eq_ok hid

variable {block : CatalogL1Block}

/-- **The ids of a block that a source serves are canonical.** -/
theorem parseBlock_eq_ok {value : Json} (h : parseBlock value label = .ok block) :
    HexCheckpoint block.checkpoint := by
  have hfield : ∀ (header : Json) (field label : String) (id : Text),
      headerField header field label requiredHexId = .ok id → IsHexId id := by
    intro header _ _ _ hid
    unfold headerField at hid
    split at hid
    · exact requiredHexId_eq_ok hid
    · cases hid
  simp only [parseBlock, bind_eq_ok, pure_eq_ok] at h
  obtain ⟨-, -, _, -, -, -, _, -, _, hblk, _, hp, rfl⟩ := h
  exact ⟨hfield _ _ _ _ hblk, hfield _ _ _ _ hp⟩

/-- The payload of a block is what was parsed, so the checkpoint settles which block it is. -/
theorem parseBlock_of_checkpoint
    (h : (parseBlock block.payload label).toOption.map CatalogL1Block.checkpoint =
      some block.checkpoint) : parseBlock block.payload label = .ok block := by
  obtain ⟨parsed, hp, hcp⟩ := Option.map_eq_some_iff.1 h
  have hok : parseBlock block.payload label = .ok parsed := by
    cases hres : parseBlock block.payload label with rw [hres] at hp
    | error _ => cases hp
    | ok _ => exact congrArg _ (Option.some_inj.1 hp)
  have hpayload : parsed.payload = block.payload := by
    simp only [parseBlock, bind_eq_ok, pure_eq_ok] at hok
    obtain ⟨-, -, _, -, -, -, _, -, _, -, _, -, rfl⟩ := hok
    rfl
  obtain ⟨_, _⟩ := block
  obtain ⟨_, _⟩ := parsed
  cases hcp
  cases hpayload
  exact hok

/-! ### Operations -/

/-- **What is guaranteed of a channel operation that was read.** -/
structure WellFormedOperation (operation : DecodedChannelOperation) : Prop where
  channelId : IsHexId operation.channelId
  transactionHash : IsHexId operation.transactionHash
  operationIndex : operation.operationIndex < 2 ^ 32
  keys : ∀ keys threshold, operation.kind = .configuration keys threshold →
    ∀ key ∈ keys, IsLocalId key
  signer : ∀ parent signer bytes classification,
    operation.kind = .inscription parent signer bytes classification → IsLocalId signer

theorem canonicalHex_eq_ok (h : canonicalHex value label = .ok id) : IsHexId id := by
  simp only [canonicalHex, bind_eq_ok, exists_unit, reject_eq_ok, not_or, not_not, pure_eq_ok] at h
  obtain ⟨⟨hlen, hdig⟩, rfl⟩ := h
  have hplain : Text.IsPlain (withoutHexMark value) := fun c hc =>
    plain_of_isAsciiHexdigit (all_eq_true.1 hdig c hc)
  have hlow : ∀ c ∈ (withoutHexMark value).toAsciiLowercase, Text.isLowerHexdigit c = true := by
    intro c hc
    obtain ⟨d, hd, rfl⟩ := mem_map.1 hc
    exact isLowerHexdigit_toLower (all_eq_true.1 hdig d hd)
  have hplain' : Text.IsPlain (withoutHexMark value).toAsciiLowercase := fun c hc =>
    plain_of_isAsciiHexdigit (isAsciiHexdigit_of_lower (hlow c hc))
  refine ⟨?_, all_eq_true.2 hlow⟩
  rw [hplain'.byteLength, Text.toAsciiLowercase, length_map, ← hplain.byteLength, hlen]

theorem canonicalLocalText_eq_ok {text : Text} (h : canonicalLocalText value label = .ok text) :
    IsLocalId text := by
  simp only [canonicalLocalText, bind_eq_ok, exists_unit, reject_eq_ok, pure_eq_ok] at h
  obtain ⟨hv, rfl⟩ := h
  exact hv

theorem requiredChannelId_eq_ok {value : Json} {keys : List String}
    (h : requiredChannelId value keys = .ok id) : IsHexId id := by
  simp only [requiredChannelId, bind_eq_ok] at h
  obtain ⟨_, -, hid⟩ := h
  exact canonicalHex_eq_ok hid

theorem mapM_eq_ok {α β ε : Type} {f : α → Except ε β} {l : List α} {r : List β}
    (h : l.mapM f = .ok r) : ∀ b ∈ r, ∃ a ∈ l, f a = .ok b := by
  induction l generalizing r with
  | nil =>
    rw [mapM_nil, pure_eq_ok] at h
    subst h
    exact fun b hb => absurd hb not_mem_nil
  | cons a _ ih =>
    simp only [mapM_cons, bind_eq_ok, pure_eq_ok] at h
    obtain ⟨_, hb, _, hbs, rfl⟩ := h
    intro x hx
    rcases mem_cons.1 hx with rfl | hx
    · exact ⟨a, mem_cons_self, hb⟩
    · obtain ⟨y, hy, hyx⟩ := ih hbs x hx
      exact ⟨y, mem_cons_of_mem a hy, hyx⟩

variable {payload : Json} {channelId : Text} {kind : DecodedChannelOperationKind}
  {hash : Option Text} {index : ℕ} {operations : List DecodedChannelOperation}
  {o : ChannelObservation}

theorem parseConfiguration_eq_ok (h : parseConfiguration payload = .ok (channelId, kind)) :
    IsHexId channelId ∧ ∃ keys threshold, kind = .configuration keys threshold ∧
      ∀ key ∈ keys, IsLocalId key := by
  simp only [parseConfiguration, bind_eq_ok, exists_unit, pure_eq_ok, Prod.mk.injEq] at h
  obtain ⟨_, hid, _, -, keys, hkeys, -, threshold, -, rfl, rfl⟩ := h
  refine ⟨requiredChannelId_eq_ok hid, keys, threshold, rfl, fun key hkey => ?_⟩
  obtain ⟨_, -, hval⟩ := mapM_eq_ok hkeys key hkey
  obtain ⟨_, -, htext⟩ := bind_eq_ok.1 hval
  exact canonicalLocalText_eq_ok htext

theorem parseInscription_eq_ok (h : parseInscription ext payload = .ok (channelId, kind)) :
    IsHexId channelId ∧ ∃ parent signer bytes classification,
      kind = .inscription parent signer bytes classification ∧ IsLocalId signer := by
  simp only [parseInscription, bind_eq_ok, pure_eq_ok, Prod.mk.injEq] at h
  obtain ⟨_, hid, _, -, parent, -, _, -, signer, hs, _, -, bytes, -, classification, -, rfl,
    rfl⟩ := h
  exact ⟨requiredChannelId_eq_ok hid, parent, signer, bytes, classification, rfl,
    canonicalLocalText_eq_ok hs⟩

theorem decodeChannelOperation_wellFormed {value : Json}
    {operation : DecodedChannelOperation} (hind : index < 2 ^ 32)
    (h : decodeChannelOperation ext hash index value = .ok (some operation)) :
    WellFormedOperation operation := by
  unfold decodeChannelOperation at h
  split at h
  · cases h
  · split_ifs at h with ho hcon hi hd
    all_goals
      simp only [bind_eq_ok, required_eq_ok, pure_eq_ok, map_eq_ok, Option.some.injEq] at h
    · obtain ⟨_, -, transactionHash, hhash, payload, -, ⟨channelId, kind⟩, hparse, rfl⟩ := h
      obtain ⟨hchan, _, _, rfl, hkeys⟩ := parseConfiguration_eq_ok hparse
      exact ⟨hchan, canonicalHex_eq_ok hhash, hind, by rintro _ _ ⟨⟩; exact hkeys, by simp⟩
    · obtain ⟨_, -, transactionHash, hhash, payload, -, ⟨channelId, _⟩, hparse, rfl⟩ := h
      obtain ⟨hchan, _, _, _, _, rfl, hs⟩ := parseInscription_eq_ok hparse
      exact ⟨hchan, canonicalHex_eq_ok hhash, hind, by simp, by rintro _ _ _ _ ⟨⟩; exact hs⟩
    · obtain ⟨_, -, transactionHash, hhash, payload, -, _, ⟨channelId, hid, rfl⟩, rfl⟩ := h
      exact ⟨requiredChannelId_eq_ok hid, canonicalHex_eq_ok hhash, hind, by simp, by simp⟩
    · obtain ⟨_, -, _, hhash, _, -, _, ⟨_, hid, rfl⟩, rfl⟩ := h
      exact ⟨requiredChannelId_eq_ok hid, canonicalHex_eq_ok hhash, hind, by simp, by simp⟩
    · cases h

theorem decodeOperations_wellFormed {values : List Json}
    (h : decodeOperations ext hash index values = .ok operations) :
    ∀ operation ∈ operations, WellFormedOperation operation := by
  induction values generalizing index operations with
  | nil =>
    cases h
    simp
  | cons _ _ ih =>
    simp only [decodeOperations, bind_eq_ok, exists_unit, reject_eq_ok, not_le, pure_eq_ok] at h
    obtain ⟨hind, _, hdec, _, ho, rfl⟩ := h
    intro operation hm
    rcases mem_append.1 hm with hm | hm
    · rw [Option.mem_toList] at hm
      obtain rfl := Option.mem_def.1 hm
      exact decodeChannelOperation_wellFormed hind hdec
    · exact ih ho operation hm

/-- **Every channel operation that is read from a block is well formed.** -/
theorem decodeBlockChannelOperations_wellFormed {block : Json}
    (h : decodeBlockChannelOperations ext block = .ok operations) :
    ∀ operation ∈ operations, WellFormedOperation operation := by
  simp only [decodeBlockChannelOperations, bind_eq_ok, pure_eq_ok] at h
  obtain ⟨_, -, _, hdec, rfl⟩ := h
  intro operation hm
  obtain ⟨list, hlist, hm⟩ := mem_flatten.1 hm
  obtain ⟨_, -, htx⟩ := mapM_eq_ok hdec list hlist
  unfold decodeTransaction at htx
  split at htx
  · cases htx
    cases hm
  · split at htx
    · cases htx
      cases hm
    · exact decodeOperations_wellFormed htx operation hm

/-- What is guaranteed of a channel operation, as the catalog sees it. -/
structure ChannelObservation.WellFormed (o : ChannelObservation) : Prop where
  channelId : IsHexId o.channelId
  transactionHash : IsHexId o.transactionHash
  operationIndex : o.operationIndex < 2 ^ 32
  keys : ∀ keys threshold, o.kind = .configuration keys threshold → ∀ key ∈ keys, IsLocalId key
  signer : ∀ evidenceKind root signer conflicting,
    o.kind = .inscription evidenceKind root signer conflicting → IsLocalId signer

theorem wellFormed_of_mem (h : o ∈ blockObservations ext block) : o.WellFormed := by
  unfold blockObservations at h
  split at h
  case h_2 => cases h
  next operations hdec =>
    obtain ⟨operation, hm, rfl⟩ := mem_map.1 h
    have hwell := decodeBlockChannelOperations_wellFormed hdec operation hm
    refine ⟨hwell.channelId, hwell.transactionHash, hwell.operationIndex, ?_, ?_⟩
    · intro _ _ hk
      unfold channelObservation at hk
      split at hk
      · next keys' threshold' hcon =>
        cases hk
        exact hwell.keys _ _ hcon
      all_goals cases hk
    · intro _ _ _ _ hk
      unfold channelObservation at hk
      split at hk
      case h_2 =>
        next hi =>
        cases hk
        exact hwell.signer _ _ _ _ hi
      all_goals cases hk

/-! ### Evidence -/

/-- The id of a piece of evidence is a local id. -/
theorem isLocalId_evidenceId (h : o.WellFormed) (block : CatalogL1Block)
    (segmentId : Text) (evidenceKind : ZoneEvidenceKind) (evidenceUse : CatalogEvidenceUse) :
    IsLocalId (evidenceReference o block segmentId evidenceKind evidenceUse).evidenceId := by
  change IsLocalId ("evidence-".toList ++ o.transactionHash ++ ['-'] ++
    Text.ofNat o.operationIndex ++ ['-'] ++ evidenceKindTag evidenceKind)
  have hstart : Text.IsPlain "evidence-".toList := Text.isPlain_of_all (by decide)
  have hdash : Text.IsPlain ['-'] := Text.isPlain_of_all (by decide)
  have htag : Text.IsPlain (evidenceKindTag evidenceKind) :=
    Text.isPlain_of_all (by cases evidenceKind <;> decide)
  have hdig : Text.IsPlain (Text.ofNat o.operationIndex) := by
    intro c hc
    have hdigit := Nat.isDigit_of_mem_toDigits (by decide) (by decide) hc
    rw [Char.isDigit, Bool.and_eq_true, decide_eq_true_eq, decide_eq_true_eq] at hdigit
    have hlow : '0'.toNat ≤ c.toNat := hdigit.1
    have hhigh : c.toNat ≤ '9'.toNat := hdigit.2
    exact ⟨le_trans (by decide) hlow, lt_of_le_of_lt hhigh (by decide)⟩
  refine isLocalId_of_plain (((((hstart.append h.transactionHash.plain).append hdash).append
    hdig).append hdash).append htag) (by simp) ?_
  -- nine, sixty-four, two and at most ten and nine characters
  have hcnt : (Text.ofNat o.operationIndex).length ≤ 10 :=
    Nat.toDigits_length 10 o.operationIndex 10 (by decide) (lt_trans h.operationIndex (by decide))
  have htags : (evidenceKindTag evidenceKind).length ≤ 9 := by cases evidenceKind <;> decide
  have hnine : "evidence-".toList.length = 9 := by decide
  have hhash := h.transactionHash.length_eq
  simp only [length_append, length_singleton]
  omega

/-- **The evidence of a block passes the check of the store.** -/
theorem evidenceOk_of_mem {segmentId : Text} {e : ZoneEvidenceReference}
    (hblk : IsHexId block.checkpoint.blockId) (hseg : IsLocalId segmentId)
    (he : e ∈ blockEvidence ext segmentId block) :
    EvidenceOk e := by
  obtain ⟨o, ho, he⟩ := mem_flatMap.1 he
  have hwell := wellFormed_of_mem ho
  have hall : ∀ evidenceKind evidenceUse,
      EvidenceOk (evidenceReference o block segmentId evidenceKind evidenceUse) :=
    fun _ _ => ⟨isLocalId_evidenceId hwell _ _ _ _, hwell.channelId, hseg,
      hblk, by rintro _ ⟨⟩; exact hwell.transactionHash, by rintro _ ⟨⟩⟩
  rcases mem_observationEvidence.1 he with rfl | ⟨-, rfl⟩
  · exact hall _ _
  · exact hall _ _

end Catalog

end LogosInspector
