import LogosInspector.Blockchain.ChannelOperations
import LogosInspector.Decode.LittleEndian
import LogosInspector.Json

/-!
# Decoding accounts

The data of an account is read by a type of its program's interface description (IDL), which is a
JSON value: the name of a primitive type, or an object that says what it is by its fields
(`option`, `vec`, `array`, `defined`, or `kind` for a struct or an enum that is written out). The
encoding is Borsh: numbers in little-endian order, one byte for the tag of an option or the
variant of an enum, four bytes for the length of a vector or a text.

Every function returns the value it has read, again as JSON, and the number of bytes it has
consumed. An error is a chain of messages, the outermost first.

The source counts the depth of nesting up to `32`; here the recursion is on the depth that
remains, and `decodeBorshType` has the source's argument.
-/

namespace LogosInspector.Decode

/-- What is used of other libraries. -/
structure Externals where
  /-- The text of an account id. -/
  accountIdText : List UInt8 → Text
  /-- The text of a JSON value. -/
  jsonText : Json → Text

/-- An error and its contexts, the outermost first. -/
abbrev DecodeResult := Except (List String)

def withContext {α : Type} (message : String) (result : DecodeResult α) : DecodeResult α :=
  result.mapError (message :: ·)

structure DecodedValue where
  value : Json
  consumed : ℕ
  deriving DecidableEq

/-- A part of the decoder, from an offset of some bytes on. -/
abbrev Decoder := List UInt8 → ℕ → DecodeResult DecodedValue

/-! ### Reading bytes -/

def byteAt (bytes : List UInt8) (offset : ℕ) : DecodeResult UInt8 :=
  required bytes[offset]? ["unexpected end of data at byte " ++ toString offset ++ ", need 1 byte"]

def bytesRange (bytes : List UInt8) (offset count : ℕ) : DecodeResult (List UInt8) :=
  if offset + count ≤ bytes.length then .ok ((bytes.drop offset).take count)
  else .error ["unexpected end of data at byte " ++ toString offset ++ ", need "
    ++ toString count ++ " bytes"]

def readLeUnsigned (bytes : List UInt8) (offset count : ℕ) : DecodeResult ℕ := do
  let bytes ← bytesRange bytes offset count
  reject (16 < count) ["cannot decode unsigned integer wider than 128 bits"]
  pure (ofLeBytes bytes)

def readLeSigned (bytes : List UInt8) (offset count : ℕ) : DecodeResult ℤ := do
  let bytes ← bytesRange bytes offset count
  reject (16 < count) ["cannot decode signed integer wider than 128 bits"]
  let highByte ← required bytes.getLast? ["cannot decode zero-width signed integer"]
  let fill : UInt8 := if highByte &&& 0x80 = 0 then 0 else 0xff
  pure (signedOfLeBytes (bytes ++ List.replicate (16 - count) fill))

/-! ### Primitive types -/

inductive Primitive
  | bool
  | u8
  | i8
  /-- An unsigned integer of some bytes. -/
  | unsigned (width : ℕ)
  /-- A signed integer of some bytes. -/
  | signed (width : ℕ)
  | accountId
  | programId
  | string
  deriving DecidableEq

def primitives : List (String × Primitive) :=
  [("bool", .bool), ("u8", .u8), ("i8", .i8), ("u16", .unsigned 2), ("i16", .signed 2),
    ("u32", .unsigned 4), ("i32", .signed 4), ("u64", .unsigned 8), ("i64", .signed 8),
    ("u128", .unsigned 16), ("i128", .signed 16), ("account_id", .accountId),
    ("program_id", .programId), ("string", .string)]

def primitive? (name : Text) : Option Primitive :=
  (primitives.find? (·.1.toList = name)).map Prod.snd

/-- `i8::from_le_bytes` -/
def i8OfByte (byte : UInt8) : ℤ :=
  if byte.toNat < 128 then byte.toNat else (byte.toNat : ℤ) - 256

def decodePrimitive (ext : Externals) : Primitive → Decoder
  | .bool, bytes, offset => do
    let byte ← byteAt bytes offset
    pure ⟨.bool (byte ≠ 0), 1⟩
  | .u8, bytes, offset => do
    let byte ← byteAt bytes offset
    pure ⟨.string (Text.ofNat byte.toNat), 1⟩
  | .i8, bytes, offset => do
    let byte ← byteAt bytes offset
    pure ⟨.string (Text.ofInt (i8OfByte byte)), 1⟩
  | .unsigned width, bytes, offset => do
    let value ← readLeUnsigned bytes offset width
    pure ⟨.string (Text.ofNat value), width⟩
  | .signed width, bytes, offset => do
    let value ← readLeSigned bytes offset width
    pure ⟨.string (Text.ofInt value), width⟩
  | .accountId, bytes, offset => do
    let id ← bytesRange bytes offset 32
    pure ⟨.string (ext.accountIdText id), 32⟩
  | .programId, bytes, offset => do
    let id ← bytesRange bytes offset 32
    pure ⟨.string (Text.hexEncode id), 32⟩
  | .string, bytes, offset => do
    let len ← readLeUnsigned bytes offset 4
    let encoded ← bytesRange bytes (offset + 4) len
    let value ← required (Text.ofBytes? encoded) ["string field is not valid UTF-8"]
    pure ⟨.string value, 4 + len⟩

def decodeBorshPrimitive (ext : Externals) (ty : Text) : Decoder :=
  match primitive? ty with
  | some primitive => decodePrimitive ext primitive
  | none => fun _ _ =>
    .error ["unsupported primitive IDL type \x60" ++ ty.toMessage ++ "\x60"]

/-! ### Types of the description -/

/-- The limit on the length of vectors and arrays. -/
def lengthLimit : ℕ := 100000

def arrayLen (value : Json) : DecodeResult ℕ := do
  let len ← required (value.asU64?.or (value.asStr?.bind (parseU64 10)))
    ["array length must be an unsigned integer"]
  reject (lengthLimit < len) ["array length too large: " ++ toString len]
  pure len

def fixedArrayType (ty : Json) : DecodeResult (Option (Json × ℕ)) :=
  match ty.get? "array" with
  | none => .ok none
  | some (.array items) =>
    match items with
    | [inner, lenValue] => (arrayLen lenValue).map fun len => some (inner, len)
    | _ => .error ["array type must be [element_type, len]"]
  | some (.object fields) => do
    let array := Json.object fields
    let inner ← required (((array.get? "type").or (array.get? "inner")).or (array.get? "element"))
      ["array type object missing element type"]
    let lenValue ← required ((array.get? "len").or (array.get? "length"))
      ["array type object missing length"]
    let len ← arrayLen lenValue
    pure (some (inner, len))
  | some _ => .error ["array type must be [element_type, len] or object"]

variable {inner ty : Json}

theorem sizeOf_lookup_lt {fields : List (Text × Json)} {name : Text}
    (h : fields.lookup name = some inner) : sizeOf inner < sizeOf fields := by
  induction fields with
  | nil => simp at h
  | cons field _ ih =>
    obtain ⟨_, _⟩ := field
    rw [List.lookup_cons] at h
    split at h
    · cases h
      simp only [List.cons.sizeOf_spec, Prod.mk.sizeOf_spec]
      omega
    · have := ih h
      simp only [List.cons.sizeOf_spec]
      omega

theorem sizeOf_get?_lt {field : String} (h : ty.get? field = some inner) :
    sizeOf inner < sizeOf ty := by
  cases ty with
  | object =>
    have := sizeOf_lookup_lt h
    simp only [Json.object.sizeOf_spec]
    omega
  | _ => simp [Json.get?] at h

/-- The element type of an array type is a part of it. -/
theorem sizeOf_fixedArrayType_lt {len : ℕ}
    (h : fixedArrayType ty = .ok (some (inner, len))) : sizeOf inner < sizeOf ty := by
  rw [fixedArrayType.eq_def] at h
  split at h
  · simp at h
  · rename_i items ha
    have ha := sizeOf_get?_lt ha
    split at h
    · obtain ⟨_, -, h⟩ := map_eq_ok.1 h
      cases h
      simp only [Json.array.sizeOf_spec, List.cons.sizeOf_spec] at ha
      omega
    · simp at h
  · rename_i fields ha
    have ha := sizeOf_get?_lt ha
    simp only [bind_eq_ok, required_eq_ok, pure_eq_ok] at h
    obtain ⟨_, hi, _, -, _, -, h⟩ := h
    cases h
    rcases Option.or_eq_some_iff.1 hi with hi | ⟨-, hi⟩
    · rcases Option.or_eq_some_iff.1 hi with hi | ⟨-, hi⟩ <;>
        exact (sizeOf_get?_lt hi).trans ha
    · exact (sizeOf_get?_lt hi).trans ha
  · simp at h

def idlTypeLabel (ext : Externals) (ty : Json) : Text :=
  match ty.asStr? with
  | some value => value
  | none =>
    match _hoption : ty.get? "option" with
    | some inner => "option<".toList ++ idlTypeLabel ext inner ++ ">".toList
    | none =>
      match _hvec : ty.get? "vec" with
      | some inner => "vec<".toList ++ idlTypeLabel ext inner ++ ">".toList
      | none =>
        match _harray : fixedArrayType ty with
        | .ok (some (inner, len)) =>
          "array<".toList ++ idlTypeLabel ext inner ++ ", ".toList ++ Text.ofNat len ++ ">".toList
        | _ =>
          match (ty.get? "defined").bind Json.asStr? with
          | some name => name
          | none => ext.jsonText ty
termination_by sizeOf ty
decreasing_by
  · exact sizeOf_get?_lt _hoption
  · exact sizeOf_get?_lt _hvec
  · exact sizeOf_fixedArrayType_lt _harray

def findNamed (idl : Json) (table : String) (name : Text) : Option Json :=
  (((idl.get? table).bind Json.asArray?).getD []).find? fun item =>
    (item.get? "name").bind Json.asStr? = some name

/-- A shape by its name: a type of the description, or else the type of an account of it. -/
def findDefinedShape (idl : Json) (name : Text) : Option Json :=
  (findNamed idl "types" name).or ((findNamed idl "accounts" name).bind (·.get? "type"))

/-! ### Composite types -/

def decodeOption (decode : Decoder) : Decoder := fun bytes offset => do
  let tag ← byteAt bytes offset
  if tag = 0 then pure ⟨.null, 1⟩
  else do
    reject (tag ≠ 1) ["invalid option tag " ++ toString tag.toNat]
    let decoded ← decode bytes (offset + 1)
    pure ⟨decoded.value, decoded.consumed + 1⟩

/-- The loop over elements of one type: their values, and the cursor behind them. -/
def decodeElements (decode : Decoder) (bytes : List UInt8) :
    ℕ → ℕ → List Json → DecodeResult (List Json × ℕ)
  | 0, cursor, values => pure (values, cursor)
  | count + 1, cursor, values => do
    let decoded ← decode bytes cursor
    decodeElements decode bytes count (cursor + decoded.consumed) (values ++ [decoded.value])

def decodeVec (decode : Decoder) : Decoder := fun bytes offset => do
  let len ← readLeUnsigned bytes offset 4
  reject (lengthLimit < len) ["vector length too large: " ++ toString len]
  let (values, cursor) ← decodeElements decode bytes len (offset + 4) []
  pure ⟨.array values, cursor - offset⟩

def decodeArray (decode : Decoder) (len : ℕ) : Decoder := fun bytes offset => do
  let (values, cursor) ← decodeElements decode bytes len offset []
  pure ⟨.array values, cursor - offset⟩

/-- The name of a field, or one made of its place. -/
def fieldName (field : Json) (index : ℕ) : Text :=
  ((field.get? "name").bind Json.asStr?).getD ("field_".toList ++ Text.ofNat index)

/-- The loop over fields: what is read so far, and the cursor behind it. The type of a field is
found by `typeOf`; `failure` is the context of an error in it. -/
def decodeFields (decode : Json → Decoder) (typeOf : Text → Json → DecodeResult Json)
    (failure : String) (bytes : List UInt8) :
    ℕ → List Json → ℕ → JsonMap → DecodeResult (JsonMap × ℕ)
  | _, [], cursor, object => pure (object, cursor)
  | index, field :: fields, cursor, object => do
    let name := fieldName field index
    let ty ← typeOf name field
    let decoded ← withContext (failure ++ " \x60" ++ name.toMessage ++ "\x60")
      (decode ty bytes cursor)
    decodeFields decode typeOf failure bytes (index + 1) fields (cursor + decoded.consumed)
      (object.set name decoded.value)

def structFieldType (name : Text) (field : Json) : DecodeResult Json :=
  required (field.get? "type") ["field \x60" ++ name.toMessage ++ "\x60 has no type"]

def decodeBorshStruct (decode : Json → Decoder) (shape : Json) : Decoder := fun bytes offset => do
  let fields ← required ((shape.get? "fields").bind Json.asArray?)
    ["struct shape has no fields array"]
  let (object, cursor) ← decodeFields decode structFieldType "failed to decode field" bytes 0
    fields offset JsonMap.empty
  pure ⟨.ofMap object, cursor - offset⟩

/-- A field of a variant can be its type itself. -/
def variantFieldType (_name : Text) (field : Json) : DecodeResult Json :=
  .ok ((field.get? "type").getD field)

def variantName (variant : Json) : Text :=
  ((variant.get? "name").bind Json.asStr?).getD "unknown".toList

def variantFields (variant : Json) : List Json :=
  ((variant.get? "fields").bind Json.asArray?).getD []

/-- What an enum is decoded to. -/
def enumValue (name : Text) (index : ℕ) (fields : Json) : Json :=
  .ofMap (.ofFields [("variant".toList, .string name),
    ("variant_index".toList, .number (.posInt index.toUInt64)), ("fields".toList, fields)])

def decodeBorshEnum (decode : Json → Decoder) (shape : Json) : Decoder := fun bytes offset => do
  let variantIndex := (← byteAt bytes offset).toNat
  let variants ← required ((shape.get? "variants").bind Json.asArray?)
    ["enum shape has no variants array"]
  let variant ← required variants[variantIndex]?
    ["enum variant " ++ toString variantIndex ++ " not present"]
  let (fields, cursor) ← decodeFields decode variantFieldType "failed to decode variant field"
    bytes 0 (variantFields variant) (offset + 1) JsonMap.empty
  pure ⟨enumValue (variantName variant) variantIndex (.ofMap fields), cursor - offset⟩

def unsupportedType (ext : Externals) (ty : Json) : Decoder := fun _ _ =>
  .error ["unsupported IDL type " ++ (idlTypeLabel ext ty).toMessage]

mutual

/-- `decode_borsh_shape`, by the depth that remains. -/
def decodeShapeWithin (ext : Externals) (idl : Json) : ℕ → Json → Decoder
  | 0, _ => fun _ _ => .error ["IDL nesting too deep"]
  | depth + 1, shape =>
    match (shape.get? "kind").bind Json.asStr? with
    | some kind =>
      if kind = "struct".toList then
        decodeBorshStruct (decodeTypeWithin ext idl depth) shape
      else if kind = "enum".toList then
        decodeBorshEnum (decodeTypeWithin ext idl depth) shape
      else fun _ _ => .error ["unsupported IDL shape kind \x60" ++ kind.toMessage ++ "\x60"]
    | none => fun _ _ => .error ["IDL shape missing kind"]

/-- `decode_borsh_type`, by the depth that remains. -/
def decodeTypeWithin (ext : Externals) (idl : Json) : ℕ → Json → Decoder
  | 0, _ => fun _ _ => .error ["IDL nesting too deep"]
  | depth + 1, ty =>
    match ty with
    | .string primitive => decodeBorshPrimitive ext primitive
    | .object _ =>
      match ty.get? "option" with
      | some inner => decodeOption (decodeTypeWithin ext idl depth inner)
      | none =>
        match ty.get? "vec" with
        | some inner => decodeVec (decodeTypeWithin ext idl depth inner)
        | none =>
          match fixedArrayType ty with
          | .error error => fun _ _ => .error error
          | .ok (some (inner, len)) => decodeArray (decodeTypeWithin ext idl depth inner) len
          | .ok none =>
            match (ty.get? "defined").bind Json.asStr? with
            | some name =>
              match findDefinedShape idl name with
              | some shape => decodeShapeWithin ext idl depth shape
              | none => fun _ _ =>
                .error ["defined IDL type \x60" ++ name.toMessage ++ "\x60 not found"]
            | none =>
              if (ty.get? "kind").isSome then decodeShapeWithin ext idl depth ty
              else unsupportedType ext ty
    | _ => unsupportedType ext ty

end

/-- The depth up to which types are nested. -/
def nestingLimit : ℕ := 32

def decodeBorshType (ext : Externals) (idl : Json) (depth : ℕ) (ty : Json) : Decoder :=
  decodeTypeWithin ext idl (nestingLimit + 1 - depth) ty

end LogosInspector.Decode
