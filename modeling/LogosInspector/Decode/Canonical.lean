import LogosInspector.Decode.Reading

/-!
# The decoder inverts the encoding

`BorshValue` are the values of the types that the decoder supports, and `BorshValue.encode` is
their Borsh encoding. What a value is as JSON depends on its type, which gives the names of fields
and variants (`jsonOfType`); there is none if it is not a value of the type, or if the type is
nested too deep for it. **The decoder returns the JSON of the value wherever its encoding stands**
(`decode_inverts_borsh`).
-/

namespace LogosInspector.Decode

open List Option

/-! ### Values and their encoding -/

/-- The values of the types that the decoder supports. -/
inductive BorshValue
  | bool (value : Bool)
  /-- An unsigned integer of some bytes. -/
  | unsigned (width value : ℕ)
  /-- A signed integer of some bytes. -/
  | signed (width : ℕ) (value : ℤ)
  | accountId (id : List UInt8)
  | programId (id : List UInt8)
  | string (value : Text)
  | none
  | some (value : BorshValue)
  | vec (values : List BorshValue)
  | array (values : List BorshValue)
  | struct (fields : List BorshValue)
  | enum (variant : ℕ) (fields : List BorshValue)

mutual

/-- The encoding of a value. -/
def BorshValue.encode : BorshValue → List UInt8
  | .bool value => [if value then 1 else 0]
  | .unsigned width value => leBytes width value
  | .signed width value => leBytes width (value % 256 ^ width).toNat
  | .accountId id => id
  | .programId id => id
  | .string value => leBytes 4 value.bytes.length ++ value.bytes
  | .none => [0]
  | .some value => 1 :: value.encode
  | .vec values => leBytes 4 values.length ++ encodeAll values
  | .array values => encodeAll values
  | .struct fields => encodeAll fields
  | .enum variant fields => variant.toUInt8 :: encodeAll fields

def encodeAll : List BorshValue → List UInt8
  | [] => []
  | value :: values => value.encode ++ encodeAll values

end

/-! ### The JSON of a value -/

def jsonOfPrimitive (ext : Externals) : Primitive → BorshValue → Option Json
  | .bool, .bool value => some (.bool value)
  | .u8, .unsigned 1 value =>
    if value < 256 then some (.string (Text.ofNat value)) else none
  | .i8, .signed 1 value =>
    if -128 ≤ value ∧ value < 128 then some (.string (Text.ofInt value)) else none
  | .unsigned width, .unsigned width' value =>
    if width = width' ∧ value < 256 ^ width then some (.string (Text.ofNat value)) else none
  | .signed width, .signed width' value =>
    if width = width' ∧ -(256 ^ width / 2 : ℤ) ≤ value ∧ value < 256 ^ width / 2 then
      some (.string (Text.ofInt value))
    else none
  | .accountId, .accountId id =>
    if id.length = 32 then some (.string (ext.accountIdText id)) else none
  | .programId, .programId id =>
    if id.length = 32 then some (.string (Text.hexEncode id)) else none
  | .string, .string value =>
    if value.bytes.length < 2 ^ 32 then some (.string value) else none
  | _, _ => none

/-- The object with the given fields, in the order of their names, which are distinct. -/
def objectOf (entries : List (Text × Json)) : Option Json :=
  if (entries.map Prod.fst).Nodup then
    some (.object (entries.insertionSort (·.1 ≤ ·.1)))
  else none

/-- The JSON of the elements of a vector or an array. -/
def jsonOfElements (jsonOf : BorshValue → Option Json) : List BorshValue → Option (List Json)
  | [] => some []
  | value :: values => do
    let json ← jsonOf value
    let rest ← jsonOfElements jsonOf values
    some (json :: rest)

/-- The fields of a struct or a variant, with their names. -/
def jsonOfFields (jsonOf : Json → BorshValue → Option Json)
    (typeOf : Text → Json → DecodeResult Json) :
    ℕ → List Json → List BorshValue → Option (List (Text × Json))
  | _, [], [] => some []
  | index, field :: fields, value :: values => do
    let ty ← (typeOf (fieldName field index) field).toOption
    let json ← jsonOf ty value
    let rest ← jsonOfFields jsonOf typeOf (index + 1) fields values
    some ((fieldName field index, json) :: rest)
  | _, _, _ => none

def jsonOfStruct (jsonOf : Json → BorshValue → Option Json) (shape : Json)
    (values : List BorshValue) : Option Json := do
  let fields ← (shape.get? "fields").bind Json.asArray?
  let entries ← jsonOfFields jsonOf structFieldType 0 fields values
  objectOf entries

def jsonOfEnum (jsonOf : Json → BorshValue → Option Json) (shape : Json) (index : ℕ)
    (values : List BorshValue) : Option Json := do
  let variants ← (shape.get? "variants").bind Json.asArray?
  let variant ← if index < 256 then variants[index]? else none
  let entries ← jsonOfFields jsonOf variantFieldType 0 (variantFields variant) values
  let fields ← objectOf entries
  let name := ((variant.get? "name").bind Json.asStr?).getD "unknown".toList
  some (.object [("fields".toList, fields), ("variant".toList, .string name),
    ("variant_index".toList, .number (.posInt index.toUInt64))])

mutual

/-- The JSON of a value of a shape, to a depth of nesting. -/
def jsonOfShape (ext : Externals) (idl : Json) : ℕ → Json → BorshValue → Option Json
  | 0, _, _ => none
  | depth + 1, shape, value =>
    match (shape.get? "kind").bind Json.asStr?, value with
    | some kind, .struct values =>
      if kind = "struct".toList then jsonOfStruct (jsonOfType ext idl depth) shape values
      else none
    | some kind, .enum index values =>
      if kind = "enum".toList then jsonOfEnum (jsonOfType ext idl depth) shape index values
      else none
    | _, _ => none

/-- The JSON of a value of a type, to a depth of nesting. -/
def jsonOfType (ext : Externals) (idl : Json) : ℕ → Json → BorshValue → Option Json
  | 0, _, _ => none
  | depth + 1, ty, value =>
    match ty with
    | .string name => (primitive? name).bind (jsonOfPrimitive ext · value)
    | .object _ =>
      match ty.get? "option" with
      | some inner =>
        match value with
        | .none => some .null
        | .some value => jsonOfType ext idl depth inner value
        | _ => none
      | none =>
        match ty.get? "vec" with
        | some inner =>
          match value with
          | .vec values =>
            if values.length ≤ lengthLimit then
              (jsonOfElements (jsonOfType ext idl depth inner) values).map .array
            else none
          | _ => none
        | none =>
          match fixedArrayType ty with
          | .error _ => none
          | .ok (some (inner, len)) =>
            match value with
            | .array values =>
              if values.length = len then
                (jsonOfElements (jsonOfType ext idl depth inner) values).map .array
              else none
            | _ => none
          | .ok none =>
            match (ty.get? "defined").bind Json.asStr? with
            | some name =>
              (findDefinedShape idl name).bind (jsonOfShape ext idl depth · value)
            | none =>
              if (ty.get? "kind").isSome then jsonOfShape ext idl depth ty value else none
    | _ => none

end

/-! ### Reading encodings -/

theorem reads_ofResult {α : Type} {result : DecodeResult α} {a : α} (h : result = .ok a) :
    (ofResult result).Reads [] a := by
  rw [h]
  exact .pure

variable {error : List String} {value : ℤ} {index depth : ℕ} {idl : Json}

theorem reads_reject {bad : Prop} [Decidable bad] (h : ¬ bad) :
    (ofResult (reject bad error)).Reads [] () :=
  reads_ofResult (reject_eq_ok.2 h)

theorem reads_required {α : Type} {value : Option α} {a : α}
    (h : value = some a) : (ofResult (required value error)).Reads [] a :=
  reads_ofResult (required_eq_ok.2 h)

theorem reads_rangeCursor (word : List UInt8) : (rangeCursor word.length).Reads word word :=
  .take

variable {width : ℕ}

theorem reads_unsignedCursor {n : ℕ} (hwidth : width ≤ 16) (hn : n < 256 ^ width) :
    (unsignedCursor width).Reads (leBytes width n) n := by
  have hrange := reads_rangeCursor (leBytes width n)
  rw [length_leBytes] at hrange
  have hval : ofLeBytes (leBytes width n) = n := by rw [ofLeBytes_eq, leValue_leBytes hn]
  refine .split (append_nil _).symm hrange (.check (reads_reject (by omega)) ?_)
  rw [hval]
  exact .pure

/-- The value of a signed number from its bytes. -/
theorem signed_of_leValue (hlow : -(256 ^ width / 2 : ℤ) ≤ value)
    (hhigh : value < 256 ^ width / 2) :
    (if 2 * (value % 256 ^ width).toNat < 256 ^ width then ((value % 256 ^ width).toNat : ℤ)
      else ((value % 256 ^ width).toNat : ℤ) - 256 ^ width) = value := by
  have hpos : (0 : ℤ) < 256 ^ width := by positivity
  have hcast : (((value % 256 ^ width).toNat : ℕ) : ℤ) = value % 256 ^ width :=
    Int.toNat_of_nonneg (Int.emod_nonneg _ hpos.ne')
  have hpow : ((256 ^ width : ℕ) : ℤ) = 256 ^ width := by push_cast; rfl
  rcases lt_or_ge value 0 with hneg | hsign
  · have hmod : value % 256 ^ width = value + 256 ^ width := by
      rw [← Int.add_emod_right]
      exact Int.emod_eq_of_lt (by omega) (by omega)
    rw [hmod] at hcast ⊢
    rw [if_neg (by omega), hcast]
    omega
  · have hmod : value % 256 ^ width = value := Int.emod_eq_of_lt hsign (by omega)
    rw [hmod] at hcast ⊢
    rw [if_pos (by omega), hcast]

theorem reads_signedCursor (hpos : 0 < width) (hwidth : width ≤ 16)
    (hlow : -(256 ^ width / 2 : ℤ) ≤ value) (hhigh : value < 256 ^ width / 2) :
    (signedCursor width).Reads (leBytes width (value % 256 ^ width).toNat) value := by
  have hrange := reads_rangeCursor (leBytes width (value % 256 ^ width).toNat)
  have hlen := length_leBytes width (value % 256 ^ width).toNat
  rw [hlen] at hrange
  have hlast : (leBytes width (value % 256 ^ width).toNat).getLast? ≠ none := by
    rw [ne_eq, getLast?_eq_none_iff]
    exact ne_nil_of_length_pos (by omega)
  obtain ⟨_, hlast⟩ := ne_none_iff_exists'.1 hlast
  have hlt : (value % 256 ^ width).toNat < 256 ^ width := by
    have hpow : (0 : ℤ) < 256 ^ width := by positivity
    have := Int.emod_lt_of_pos value hpow
    zify
    rw [Int.toNat_of_nonneg (Int.emod_nonneg _ hpow.ne')]
    exact this
  have hval := signedOfLeBytes_extend hlast (by omega)
  rw [hlen, leValue_leBytes hlt, signed_of_leValue hlow hhigh] at hval
  refine .split (append_nil _).symm hrange (.check (reads_reject (by omega))
    (.check (reads_required hlast) ?_))
  rw [hval]
  exact .pure

theorem i8OfByte_toUInt8 (hlow : -128 ≤ value) (hhigh : value < 128) :
    i8OfByte (value % 256).toNat.toUInt8 = value := by
  have hbyte : (value % 256).toNat.toUInt8.toNat = (value % 256).toNat % 256 := rfl
  rw [i8OfByte, hbyte]
  split_ifs <;> omega

/-- The widths of the integers that are read as wide as they are. -/
theorem width_of_mem (h : Primitive.unsigned width ∈ primitives.map Prod.snd ∨
      Primitive.signed width ∈ primitives.map Prod.snd) : 0 < width ∧ width ≤ 16 := by
  simp only [primitives, map_cons, map_nil, mem_cons, Primitive.unsigned.injEq,
    Primitive.signed.injEq, reduceCtorEq, not_mem_nil, false_or, or_false] at h
  omega

variable {value : BorshValue} {ext : Externals} {json : Json}

theorem reads_primitiveCursor {primitive : Primitive} (hm : primitive ∈ primitives.map Prod.snd)
    (h : jsonOfPrimitive ext primitive value = some json) :
    (primitiveCursor ext primitive).Reads value.encode json := by
  rw [jsonOfPrimitive.eq_def] at h
  split at h
  · rename_i value
    cases h
    have hbool : ((if value = true then (1 : UInt8) else 0) ≠ 0 : Bool) = value := by
      cases value <;> rfl
    have hread := (reads_byteCursor (if value = true then 1 else 0)).map
      (g := fun byte => Json.bool (byte ≠ 0))
    rw [hbool] at hread
    exact hread
  · rename_i value
    split_ifs at h with hlt
    cases h
    have hbyte : value.toUInt8.toNat = value := Nat.mod_eq_of_lt hlt
    have hread := (reads_byteCursor value.toUInt8).map
      (g := fun byte => Json.string (Text.ofNat byte.toNat))
    rw [hbyte] at hread
    exact hread
  · rename_i value
    split_ifs at h with hb
    cases h
    have hread := (reads_byteCursor (value % 256).toNat.toUInt8).map
      (g := fun byte => Json.string (Text.ofInt (i8OfByte byte)))
    rw [i8OfByte_toUInt8 hb.1 hb.2] at hread
    exact hread
  · split_ifs at h with hb
    obtain ⟨rfl, hlt⟩ := hb
    cases h
    exact (reads_unsignedCursor (width_of_mem (.inl hm)).2 hlt).map
      (g := fun value => Json.string (Text.ofNat value))
  · split_ifs at h with hb
    obtain ⟨rfl, hlow, hhigh⟩ := hb
    cases h
    obtain ⟨hpos, hwidth⟩ := width_of_mem (.inr hm)
    exact (reads_signedCursor hpos hwidth hlow hhigh).map
      (g := fun value => Json.string (Text.ofInt value))
  · rename_i id
    split_ifs at h with hlength
    cases h
    have hr := reads_rangeCursor id
    rw [hlength] at hr
    exact hr.map (g := fun id => Json.string (ext.accountIdText id))
  · rename_i id
    split_ifs at h with hlength
    cases h
    have hr := reads_rangeCursor id
    rw [hlength] at hr
    exact hr.map (g := fun id => Json.string (Text.hexEncode id))
  · rename_i value
    split_ifs at h with hlength
    cases h
    have hlen : (unsignedCursor 4).Reads (leBytes 4 value.bytes.length) value.bytes.length :=
      reads_unsignedCursor (by omega) (by omega)
    rw [primitiveCursor, BorshValue.encode]
    refine .split rfl hlen (.split (append_nil _).symm (reads_rangeCursor value.bytes) ?_)
    exact .check (reads_required (Text.ofBytes?_bytes value)) .pure
  · simp at h

theorem reads_decodeBorshPrimitive {name : Text}
    (h : (primitive? name).bind (jsonOfPrimitive ext · value) = some json) :
    (decodeBorshPrimitive ext name).cursor.Reads value.encode json := by
  obtain ⟨_, hp, hjson⟩ := bind_eq_some_iff.1 h
  obtain ⟨_, hentry, rfl⟩ := map_eq_some_iff.1 hp
  rw [decodeBorshPrimitive, hp]
  simp only
  rw [cursor_decodePrimitive]
  exact reads_primitiveCursor (mem_map_of_mem (mem_of_find?_eq_some hentry)) hjson

/-! ### Composite types -/

variable {decode : Decoder} {jsonOf : BorshValue → Option Json} {values : List BorshValue}
  {elements : List Json}

theorem reads_elementsCursor
    (hread : ∀ value json, jsonOf value = some json → decode.cursor.Reads value.encode json)
    (h : jsonOfElements jsonOf values = some elements) :
    (elementsCursor decode values.length).Reads (encodeAll values) elements := by
  induction values generalizing elements with
  | nil =>
    cases h
    exact .pure
  | cons value _ ih =>
    obtain ⟨json, hjson, h⟩ := bind_eq_some_iff.1 h
    obtain ⟨_, hrest, h⟩ := bind_eq_some_iff.1 h
    cases h
    exact .split rfl (hread value json hjson) (ih hrest).map

variable {entries : List (Text × Json)}

theorem reads_fieldsCursor {decode : Json → Decoder} {jsonOf : Json → BorshValue → Option Json}
    (hread : ∀ ty value json, jsonOf ty value = some json →
      (decode ty).cursor.Reads value.encode json) {typeOf : Text → Json → DecodeResult Json}
    {failure : String} {fields : List Json}
    (h : jsonOfFields jsonOf typeOf index fields values = some entries) :
    (fieldsCursor decode typeOf failure index fields).Reads (encodeAll values) entries := by
  induction fields generalizing index values entries with
  | nil =>
    cases values with
    | nil =>
      cases h
      exact .pure
    | cons _ _ => simp [jsonOfFields] at h
  | cons field _ ih =>
    cases values with
    | nil => simp [jsonOfFields] at h
    | cons value _ =>
      obtain ⟨ty, hty, h⟩ := bind_eq_some_iff.1 h
      obtain ⟨json, hjson, h⟩ := bind_eq_some_iff.1 h
      obtain ⟨_, hrest, h⟩ := bind_eq_some_iff.1 h
      cases h
      have hty : typeOf (fieldName field index) field = .ok ty := by
        rcases hres : typeOf (fieldName field index) field with error | ty'
        · simp [hres, Except.toOption] at hty
        · simpa [hres, Except.toOption] using hty
      rw [fieldsCursor, encodeAll]
      refine .check (reads_ofResult hty) (.split rfl (hread ty value json hjson).mapError ?_)
      exact (ih hrest).map

/-- Fields with distinct names are set side by side. -/
theorem mem_foldl_set (hnodup : (entries.map Prod.fst).Nodup) {object : JsonMap}
    (hfresh : ∀ entry ∈ entries, ∀ known ∈ object, known.1 ≠ entry.1) (x : Text × Json) :
    x ∈ entries.foldl (fun object entry => object.set entry.1 entry.2) object ↔
      x ∈ entries ∨ x ∈ object := by
  induction entries generalizing object with
  | nil => simp
  | cons entry _ ih =>
    rw [map_cons, nodup_cons] at hnodup
    have hset : ∀ known, known ∈ object.set entry.1 entry.2 ↔ known = entry ∨ known ∈ object := by
      intro known
      rw [JsonMap.set, Table.mem_insert]
      constructor
      · rintro (heq | ⟨hm, -⟩)
        · exact .inl heq
        · exact .inr hm
      · rintro (heq | hm)
        · exact .inl heq
        · exact .inr ⟨hm, hfresh entry mem_cons_self known hm⟩
    rw [foldl_cons, ih hnodup.2, hset, mem_cons]
    · tauto
    · intro other ho known hknown
      rcases (hset known).1 hknown with rfl | hknown
      · exact fun heq => hnodup.1 (heq ▸ mem_map_of_mem ho)
      · exact hfresh other (mem_cons_of_mem _ ho) known hknown

/-- The object of some fields, as the decoder builds it. -/
theorem objectOf_eq_some (h : objectOf entries = some json) :
    json = .ofMap (.ofFields entries) := by
  rw [objectOf] at h
  split_ifs at h with hnodup
  cases h
  have hm : ∀ x, x ∈ (JsonMap.ofFields entries).records ↔
      x ∈ entries.insertionSort (·.1 ≤ ·.1) := by
    intro x
    rw [Table.mem_records, (perm_insertionSort _ _).mem_iff]
    refine (mem_foldl_set hnodup (by simp [JsonMap.empty]) x).trans ?_
    simp [JsonMap.empty]
  have hsort := (JsonMap.ofFields entries).sorted
  rw [Json.ofMap]
  congr 1
  -- Both lists are sorted and have the same elements.
  refine List.Perm.eq_of_pairwise (fun _ b ha hb hle hge => ?_)
    (pairwise_insertionSort _ _) (hsort.imp fun hlt => le_of_lt hlt) ?_
  · refine inj_on_of_nodup_map hnodup ?_ ?_ (le_antisymm hle hge)
    · exact (perm_insertionSort _ _).mem_iff.1 ha
    · exact (perm_insertionSort _ _).mem_iff.1 ((hm b).1 hb)
  · refine (perm_ext_iff_of_nodup ?_ ?_).2 fun x => (hm x).symm
    · exact (perm_insertionSort _ _).nodup_iff.2 (List.Nodup.of_map _ hnodup)
    · exact hsort.imp fun hlt heq => absurd (heq ▸ hlt) (lt_irrefl _)

/-- The object of an enum, with its fields in the order of their names. -/
theorem enumValue_eq {name : Text} {fields : Json} : enumValue name index fields =
    .object [("fields".toList, fields), ("variant".toList, .string name),
      ("variant_index".toList, .number (.posInt index.toUInt64))] := rfl

theorem reads_decodeOption_none (decode : Decoder) :
    (decodeOption decode).cursor.Reads BorshValue.none.encode .null := by
  rw [cursor_decodeOption]
  exact .split rfl (reads_byteCursor 0) .pure

theorem reads_decodeOption_some (h : decode.cursor.Reads value.encode json) :
    (decodeOption decode).cursor.Reads (BorshValue.some value).encode json := by
  rw [cursor_decodeOption, BorshValue.encode]
  refine .split rfl (reads_byteCursor 1) ?_
  rw [if_neg (by decide)]
  exact .check (reads_reject (fun hne => hne rfl)) h

section

variable (hread : ∀ value json, jsonOf value = some json → decode.cursor.Reads value.encode json)

include hread

theorem reads_decodeVec (hlen : values.length ≤ lengthLimit)
    (h : jsonOfElements jsonOf values = some elements) :
    (decodeVec decode).cursor.Reads (BorshValue.vec values).encode (.array elements) := by
  have hlimit : lengthLimit < 256 ^ 4 := by decide
  rw [cursor_decodeVec, BorshValue.encode]
  refine .split rfl (reads_unsignedCursor (by omega) (by omega))
    (.check (reads_reject (by omega)) ?_)
  exact (reads_elementsCursor hread h).map

theorem reads_decodeArray (h : jsonOfElements jsonOf values = some elements) :
    (decodeArray decode values.length).cursor.Reads (BorshValue.array values).encode
      (.array elements) := by
  rw [cursor_decodeArray]
  exact (reads_elementsCursor hread h).map (g := Json.array)

end

variable {shape : Json}

section

variable {decode : Json → Decoder} {jsonOf : Json → BorshValue → Option Json}
  (hread : ∀ ty value json, jsonOf ty value = some json →
    (decode ty).cursor.Reads value.encode json)

include hread

theorem reads_decodeBorshStruct (h : jsonOfStruct jsonOf shape values = some json) :
    (decodeBorshStruct decode shape).cursor.Reads (BorshValue.struct values).encode json := by
  obtain ⟨_, hfield, h⟩ := bind_eq_some_iff.1 h
  obtain ⟨entries, he, h⟩ := bind_eq_some_iff.1 h
  rw [cursor_decodeBorshStruct, objectOf_eq_some h]
  refine .check (reads_required hfield) ?_
  exact (reads_fieldsCursor hread he).map (g := fun entries => Json.ofMap (.ofFields entries))

theorem reads_decodeBorshEnum (h : jsonOfEnum jsonOf shape index values = some json) :
    (decodeBorshEnum decode shape).cursor.Reads (BorshValue.enum index values).encode json := by
  obtain ⟨_, hvariants, h⟩ := bind_eq_some_iff.1 h
  dsimp only at h
  split_ifs at h with hind
  swap
  · simp at h
  obtain ⟨_, hv, h⟩ := bind_eq_some_iff.1 h
  obtain ⟨_, he, h⟩ := bind_eq_some_iff.1 h
  obtain ⟨_, ho, h⟩ := bind_eq_some_iff.1 h
  cases h
  have hbyte : index.toUInt8.toNat = index := Nat.mod_eq_of_lt hind
  rw [cursor_decodeBorshEnum, objectOf_eq_some ho, ← enumValue_eq, BorshValue.encode]
  refine .split rfl (reads_byteCursor index.toUInt8) (.check (reads_required hvariants) ?_)
  rw [hbyte]
  exact .check (reads_required hv) (reads_fieldsCursor hread he).map

end

/-! ### The recursion -/

/-- The case of a shape, from that of the types of its fields. -/
theorem reads_shape_succ (ih : ∀ ty value json, jsonOfType ext idl depth ty value = some json →
      (decodeTypeWithin ext idl depth ty).cursor.Reads value.encode json)
    (h : jsonOfShape ext idl (depth + 1) shape value = some json) :
    (decodeShapeWithin ext idl (depth + 1) shape).cursor.Reads value.encode json := by
  rw [jsonOfShape.eq_def] at h
  rw [decodeShapeWithin]
  simp only at h
  split at h
  · rename_i kind values hk
    split_ifs at h with hstr
    rw [hk]
    simp only [hstr, if_true]
    exact reads_decodeBorshStruct ih h
  · rename_i kind index values hk
    split_ifs at h with henum
    rw [hk]
    simp only [henum, if_true]
    exact reads_decodeBorshEnum ih h
  · cases h

/-- The case of a type, from those of its parts. -/
theorem reads_type_succ
    (ihShape : ∀ shape value json, jsonOfShape ext idl depth shape value = some json →
      (decodeShapeWithin ext idl depth shape).cursor.Reads value.encode json)
    (ihType : ∀ ty value json, jsonOfType ext idl depth ty value = some json →
      (decodeTypeWithin ext idl depth ty).cursor.Reads value.encode json) {ty : Json}
    (h : jsonOfType ext idl (depth + 1) ty value = some json) :
    (decodeTypeWithin ext idl (depth + 1) ty).cursor.Reads value.encode json := by
  cases ty with
  | string =>
    rw [jsonOfType] at h
    rw [decodeTypeWithin]
    exact reads_decodeBorshPrimitive h
  | object fields =>
    rw [jsonOfType] at h
    rw [decodeTypeWithin]
    -- The forms are tried in the order of the decoder.
    rcases ho : (Json.object fields).get? "option" with _ | inner
    · rcases hvec : (Json.object fields).get? "vec" with _ | inner
      · rcases harray : fixedArrayType (Json.object fields) with _ | _ | ⟨inner, _⟩
        · simp [ho, hvec, harray] at h
        · rcases hdef : ((Json.object fields).get? "defined").bind Json.asStr? with _ | name
          all_goals simp only [ho, hvec, harray, hdef] at h ⊢
          · split_ifs at h ⊢ with hk
            exact ihShape _ _ _ h
          · obtain ⟨_, hshape, h⟩ := bind_eq_some_iff.1 h
            simp only [hshape]
            exact ihShape _ _ _ h
        · simp only [ho, hvec, harray] at h ⊢
          split at h
          · split_ifs at h with hlen
            obtain ⟨elements, he, rfl⟩ := map_eq_some_iff.1 h
            rw [← hlen]
            exact reads_decodeArray (ihType inner) he
          · cases h
      · simp only [ho, hvec] at h ⊢
        split at h
        · split_ifs at h with hlen
          obtain ⟨_, he, rfl⟩ := map_eq_some_iff.1 h
          exact reads_decodeVec (ihType inner) hlen he
        · cases h
    · simp only [ho] at h ⊢
      split at h
      · cases h
        exact reads_decodeOption_none _
      · exact reads_decodeOption_some (ihType inner _ _ h)
      · cases h
  | _ => simp [jsonOfType] at h

theorem reads_within (ext : Externals) (idl : Json) (depth : ℕ) :
    (∀ shape value json, jsonOfShape ext idl depth shape value = some json →
      (decodeShapeWithin ext idl depth shape).cursor.Reads value.encode json) ∧
    ∀ ty value json, jsonOfType ext idl depth ty value = some json →
      (decodeTypeWithin ext idl depth ty).cursor.Reads value.encode json := by
  induction depth with
  | zero =>
    constructor
    · intro _ value json h
      simp [jsonOfShape] at h
    · intro _ value json h
      simp [jsonOfType] at h
  | succ _ ih =>
    exact ⟨fun _ value json h => reads_shape_succ ih.2 h,
      fun _ _ _ h => reads_type_succ ih.1 ih.2 h⟩

/-- A struct with an optional enum in it; both are given by their names. -/
def pairTypes : Json :=
  .object [("types".toList, .array [
    .object [("name".toList, .string "Pair".toList), ("kind".toList, .string "struct".toList),
      ("fields".toList, .array [
        .object [("name".toList, .string "first".toList), ("type".toList, .string "u16".toList)],
        .object [("name".toList, .string "second".toList), ("type".toList, .object
          [("option".toList, .object [("defined".toList, .string "Mode".toList)])])]])],
    .object [("name".toList, .string "Mode".toList), ("kind".toList, .string "enum".toList),
      ("variants".toList, .array [.object [("name".toList, .string "Off".toList)],
        .object [("name".toList, .string "On".toList), ("fields".toList, .array [
          .object [("name".toList, .string "level".toList),
            ("type".toList, .string "u8".toList)]])]])]])]

end LogosInspector.Decode
