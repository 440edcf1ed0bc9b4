import LogosInspector.Decode.Borsh
import LogosInspector.Decode.Cursor

/-!
# The decoder as a cursor

The decoder does its own arithmetic with offsets: each function adds up what it has consumed, or
moves a cursor and returns how far it has come. Here every one of them is shown to be the sequence
of its parts (`Cursor.bind`), so that its offsets are those of a cursor. That the decoder is local
then follows part by part (`local_within`).
-/

namespace LogosInspector.Decode

/-- The decoder as a cursor. -/
def Decoder.cursor (decode : Decoder) : Cursor UInt8 (List String) Json := fun bytes offset =>
  (decode bytes offset).map fun decoded => (decoded.value, decoded.consumed)

variable {decode : Decoder}

theorem Decoder.cursor_eq_ok {bytes : List UInt8} {offset consumed : ℕ} {value : Json} :
    decode.cursor bytes offset = .ok (value, consumed) ↔
      decode bytes offset = .ok ⟨value, consumed⟩ := by
  rw [Decoder.cursor]
  rcases decode bytes offset with _ | ⟨_, _⟩
  · simp [Except.map]
  · simp [Except.map]

/-! ### Reading bytes -/

def byteCursor : Cursor UInt8 (List String) UInt8 := fun bytes offset =>
  (byteAt bytes offset).map (·, 1)

/-- `bytesRange` as a cursor. -/
def rangeCursor (count : ℕ) : Cursor UInt8 (List String) (List UInt8) :=
  Cursor.take count fun offset => ["unexpected end of data at byte " ++ toString offset
    ++ ", need " ++ toString count ++ " bytes"]

theorem rangeCursor_eq (count : ℕ) : rangeCursor count = fun bytes offset =>
    (bytesRange bytes offset count).map (·, count) := by
  funext bytes offset
  rw [rangeCursor, Cursor.take, bytesRange]
  split_ifs <;> rfl

theorem local_byteCursor : byteCursor.Local := by
  intro bytes offset _ _ h
  rw [byteCursor, byteAt] at h
  rcases hbyte : bytes[offset]? with _ | found
  · rw [hbyte] at h
    cases h
  · rw [hbyte] at h
    cases h
    obtain ⟨_, -⟩ := List.getElem?_eq_some_iff.1 hbyte
    refine ⟨by omega, fun _ _ _ hslice => ?_⟩
    have hhead := congrArg List.head? hslice
    simp only [List.head?_take, List.head?_drop, one_ne_zero, if_false, hbyte] at hhead
    rw [byteCursor, byteAt, hhead]
    rfl

theorem reads_byteCursor (byte : UInt8) : byteCursor.Reads [byte] byte := by
  intro before after
  have hbyte : (before ++ [byte] ++ after)[before.length]? = some byte := by simp
  rw [byteCursor, byteAt, hbyte]
  rfl

/-! ### Loops -/

/-- The elements of a vector or an array. -/
def elementsCursor (decode : Decoder) : ℕ → Cursor UInt8 (List String) (List Json)
  | 0 => .pure []
  | count + 1 => decode.cursor.bind fun value =>
      (elementsCursor decode count).bind fun values => .pure (value :: values)

theorem decodeElements_eq (decode : Decoder) (bytes : List UInt8) (count cursor : ℕ)
    (values : List Json) :
    decodeElements decode bytes count cursor values =
      (elementsCursor decode count bytes cursor).map fun (more, consumed) =>
        (values ++ more, cursor + consumed) := by
  induction count generalizing cursor values with
  | zero => simp [decodeElements, elementsCursor, Cursor.pure, Except.map, pure, Except.pure]
  | succ count ih =>
    rw [decodeElements, elementsCursor, Cursor.bind, Decoder.cursor]
    rcases decode bytes cursor with error | ⟨_, consumed⟩
    · rfl
    · simp only [bind, Except.bind, Except.map, ih, Cursor.bind, Cursor.pure]
      rcases elementsCursor decode count bytes (cursor + consumed) with _ | ⟨_, _⟩
      · rfl
      · simp [Nat.add_assoc]

/-- A result that needs nothing of the buffer. -/
def ofResult {α : Type} (result : DecodeResult α) : Cursor UInt8 (List String) α := fun _ _ =>
  result.map (·, 0)

/-- The fields of a struct or a variant, with their names. -/
def fieldsCursor (decode : Json → Decoder) (typeOf : Text → Json → DecodeResult Json)
    (failure : String) : ℕ → List Json → Cursor UInt8 (List String) (List (Text × Json))
  | _, [] => .pure []
  | index, field :: fields =>
    let name := fieldName field index
    (ofResult (typeOf name field)).bind fun ty =>
      ((decode ty).cursor.mapError
          ((failure ++ " \x60" ++ name.toMessage ++ "\x60") :: ·)).bind fun value =>
        (fieldsCursor decode typeOf failure (index + 1) fields).bind fun entries =>
          .pure ((name, value) :: entries)

theorem decodeFields_eq (decode : Json → Decoder) (typeOf : Text → Json → DecodeResult Json)
    (failure : String) (bytes : List UInt8) (index : ℕ) (fields : List Json) (cursor : ℕ)
    (object : JsonMap) :
    decodeFields decode typeOf failure bytes index fields cursor object =
      (fieldsCursor decode typeOf failure index fields bytes cursor).map
        fun (entries, consumed) => (entries.foldl (fun object entry =>
          object.set entry.1 entry.2) object, cursor + consumed) := by
  induction fields generalizing index cursor object with
  | nil => rfl
  | cons field fields ih =>
    rw [decodeFields, fieldsCursor, Cursor.bind, ofResult]
    rcases typeOf (fieldName field index) field with error | ty
    · rfl
    · simp only [bind, Except.bind, Except.map, Nat.add_zero, Cursor.bind, Cursor.mapError,
        Decoder.cursor, withContext]
      rcases decode ty bytes cursor with error | ⟨_, consumed⟩
      · rfl
      · simp only [Except.mapError, ih, Cursor.pure]
        rcases fieldsCursor decode typeOf failure (index + 1) fields bytes (cursor + consumed)
          with error | ⟨entries, rest⟩
        · rfl
        · simp only [Except.map, List.foldl_cons, Except.ok.injEq, Prod.mk.injEq, true_and]
          omega

theorem local_ofResult {α : Type} (result : DecodeResult α) : (ofResult result).Local := by
  rcases result with error | a
  · exact .fail
  · exact .pure

theorem local_elementsCursor (h : decode.cursor.Local) (count : ℕ) :
    (elementsCursor decode count).Local := by
  induction count with
  | zero => exact .pure
  | succ _ ih => exact h.bind fun _ => ih.bind fun _ => .pure

theorem local_fieldsCursor {decode : Json → Decoder} (h : ∀ ty, (decode ty).cursor.Local)
    (typeOf : Text → Json → DecodeResult Json) (failure : String) (index : ℕ)
    (fields : List Json) : (fieldsCursor decode typeOf failure index fields).Local := by
  induction fields generalizing index with
  | nil => exact .pure
  | cons _ _ ih =>
    rw [fieldsCursor]
    exact (local_ofResult _).bind fun ty => (h ty).mapError.bind fun _ =>
      (ih (index + 1)).bind fun _ => .pure

/-! ### The parts of the decoder -/

def unsignedCursor (count : ℕ) : Cursor UInt8 (List String) ℕ :=
  (rangeCursor count).bind fun bytes => (ofResult (reject (16 < count)
    ["cannot decode unsigned integer wider than 128 bits"])).bind fun _ => .pure (ofLeBytes bytes)

theorem unsignedCursor_eq (count : ℕ) : unsignedCursor count = fun bytes offset =>
    (readLeUnsigned bytes offset count).map (·, count) := by
  funext bytes offset
  simp only [unsignedCursor, Cursor.bind, rangeCursor_eq, readLeUnsigned]
  rcases bytesRange bytes offset count with error | found
  · rfl
  · simp only [bind, Except.bind, Except.map, ofResult, Cursor.pure]
    rcases (reject (16 < count) _ : DecodeResult Unit) with error | _
    · rfl
    · rfl

def signedCursor (count : ℕ) : Cursor UInt8 (List String) ℤ :=
  (rangeCursor count).bind fun bytes => (ofResult (reject (16 < count)
    ["cannot decode signed integer wider than 128 bits"])).bind fun _ =>
    (ofResult (required bytes.getLast? ["cannot decode zero-width signed integer"])).bind
      fun highByte => .pure (signedOfLeBytes (bytes ++ List.replicate (16 - count)
        (if highByte &&& 0x80 = 0 then 0 else 0xff)))

theorem signedCursor_eq (count : ℕ) : signedCursor count = fun bytes offset =>
    (readLeSigned bytes offset count).map (·, count) := by
  funext bytes offset
  simp only [signedCursor, Cursor.bind, rangeCursor_eq, readLeSigned]
  rcases bytesRange bytes offset count with error | found
  · rfl
  · simp only [bind, Except.bind, Except.map, ofResult, Cursor.pure]
    rcases (reject (16 < count) _ : DecodeResult Unit) with error | _
    · rfl
    · rcases found.getLast? with _ | high
      · rfl
      · rfl

theorem local_unsignedCursor (count : ℕ) : (unsignedCursor count).Local :=
  Cursor.Local.take.bind fun _ => (local_ofResult _).bind fun _ => .pure

theorem local_signedCursor (count : ℕ) : (signedCursor count).Local :=
  Cursor.Local.take.bind fun _ => (local_ofResult _).bind fun _ =>
    (local_ofResult _).bind fun _ => .pure

/-- The primitive types as cursors. -/
def primitiveCursor (ext : Externals) : Primitive → Cursor UInt8 (List String) Json
  | .bool => byteCursor.bind fun byte => .pure (.bool (byte ≠ 0))
  | .u8 => byteCursor.bind fun byte => .pure (.string (Text.ofNat byte.toNat))
  | .i8 => byteCursor.bind fun byte => .pure (.string (Text.ofInt (i8OfByte byte)))
  | .unsigned width => (unsignedCursor width).bind fun value =>
      .pure (.string (Text.ofNat value))
  | .signed width => (signedCursor width).bind fun value => .pure (.string (Text.ofInt value))
  | .accountId => (rangeCursor 32).bind fun id => .pure (.string (ext.accountIdText id))
  | .programId => (rangeCursor 32).bind fun id => .pure (.string (Text.hexEncode id))
  | .string => (unsignedCursor 4).bind fun len => (rangeCursor len).bind fun encoded =>
      (ofResult (required (Text.ofBytes? encoded) ["string field is not valid UTF-8"])).bind
        fun value => .pure (.string value)

theorem cursor_decodePrimitive (ext : Externals) (primitive : Primitive) :
    (decodePrimitive ext primitive).cursor = primitiveCursor ext primitive := by
  funext bytes offset
  cases primitive with
  | bool | u8 | i8 =>
    simp only [Decoder.cursor, decodePrimitive, primitiveCursor, Cursor.bind, byteCursor]
    rcases byteAt bytes offset with error | byte <;> rfl
  | unsigned width =>
    simp only [Decoder.cursor, decodePrimitive, primitiveCursor, Cursor.bind, unsignedCursor_eq]
    rcases readLeUnsigned bytes offset width with error | value <;> rfl
  | signed width =>
    simp only [Decoder.cursor, decodePrimitive, primitiveCursor, Cursor.bind, signedCursor_eq]
    rcases readLeSigned bytes offset width with error | value <;> rfl
  | accountId | programId =>
    simp only [Decoder.cursor, decodePrimitive, primitiveCursor, Cursor.bind, rangeCursor_eq]
    rcases bytesRange bytes offset 32 with error | id <;> rfl
  | string =>
    simp only [Decoder.cursor, decodePrimitive, primitiveCursor, Cursor.bind, unsignedCursor_eq,
      rangeCursor_eq]
    rcases readLeUnsigned bytes offset 4 with error | len
    · rfl
    · simp only [bind, Except.bind, Except.map]
      rcases bytesRange bytes (offset + 4) len with error | encoded
      · rfl
      · simp only [ofResult]
        rcases Text.ofBytes? encoded with _ | value <;> rfl

theorem local_primitiveCursor (ext : Externals) (primitive : Primitive) :
    (primitiveCursor ext primitive).Local := by
  rw [primitiveCursor.eq_def]
  cases primitive with
  | bool | u8 | i8 => exact local_byteCursor.bind fun _ => .pure
  | unsigned width => exact (local_unsignedCursor width).bind fun _ => .pure
  | signed width => exact (local_signedCursor width).bind fun _ => .pure
  | accountId | programId => exact Cursor.Local.take.bind fun _ => .pure
  | string =>
    exact (local_unsignedCursor 4).bind fun _ => Cursor.Local.take.bind fun _ =>
      (local_ofResult _).bind fun _ => .pure

theorem local_decodeBorshPrimitive (ext : Externals) (ty : Text) :
    (decodeBorshPrimitive ext ty).cursor.Local := by
  rw [decodeBorshPrimitive]
  split
  · rw [cursor_decodePrimitive]
    exact local_primitiveCursor ext _
  · exact .fail

/-- A decoder that fails. -/
theorem local_error (error : List String) : (Decoder.cursor fun _ _ => .error error).Local := .fail

theorem cursor_decodeOption (decode : Decoder) : (decodeOption decode).cursor =
    byteCursor.bind fun tag =>
      if tag = 0 then .pure .null
      else (ofResult (reject (tag ≠ 1) ["invalid option tag " ++ toString tag.toNat])).bind fun _ =>
        decode.cursor := by
  funext bytes offset
  simp only [Decoder.cursor, decodeOption, Cursor.bind, byteCursor]
  rcases byteAt bytes offset with error | tag
  · rfl
  · by_cases htag : tag = 0
    · simp only [htag]
      rfl
    · simp only [bind, Except.bind, Except.map, if_neg htag, Cursor.bind, ofResult, Decoder.cursor]
      rcases (reject (tag ≠ 1) _ : DecodeResult Unit) with error | _
      · rfl
      · simp only [Nat.add_zero, Nat.zero_add]
        rcases decode bytes (offset + 1) with _ | ⟨_, _⟩
        · rfl
        · simp only [pure, Except.pure, Except.ok.injEq, Prod.mk.injEq, true_and]
          omega

theorem cursor_decodeVec (decode : Decoder) : (decodeVec decode).cursor =
    (unsignedCursor 4).bind fun len =>
      (ofResult (reject (lengthLimit < len)
        ["vector length too large: " ++ toString len])).bind fun _ =>
      (elementsCursor decode len).bind fun values => .pure (.array values) := by
  funext bytes offset
  simp only [Decoder.cursor, decodeVec, Cursor.bind, unsignedCursor_eq, decodeElements_eq]
  rcases readLeUnsigned bytes offset 4 with error | len
  · rfl
  · simp only [bind, Except.bind, Except.map, ofResult]
    rcases (reject (lengthLimit < len) _ : DecodeResult Unit) with error | _
    · rfl
    · simp only [Nat.add_zero]
      rcases elementsCursor decode len bytes (offset + 4) with _ | ⟨_, _⟩
      · rfl
      · simp only [pure, Except.pure, Cursor.pure, List.nil_append, Except.ok.injEq, Prod.mk.injEq,
          true_and]
        omega

theorem cursor_decodeArray (decode : Decoder) (len : ℕ) : (decodeArray decode len).cursor =
    (elementsCursor decode len).bind fun values => .pure (.array values) := by
  funext bytes offset
  simp only [Decoder.cursor, decodeArray, Cursor.bind, decodeElements_eq]
  rcases elementsCursor decode len bytes offset with _ | ⟨_, _⟩
  · rfl
  · simp only [bind, Except.bind, Except.map, pure, Except.pure, Cursor.pure, List.nil_append,
      Except.ok.injEq, Prod.mk.injEq, true_and]
    omega

theorem cursor_decodeBorshStruct (decode : Json → Decoder) (shape : Json) :
    (decodeBorshStruct decode shape).cursor =
      (ofResult (required ((shape.get? "fields").bind Json.asArray?)
        ["struct shape has no fields array"])).bind fun fields =>
      (fieldsCursor decode structFieldType "failed to decode field" 0 fields).bind fun entries =>
        .pure (.ofMap (.ofFields entries)) := by
  funext bytes offset
  simp only [Decoder.cursor, decodeBorshStruct, Cursor.bind, decodeFields_eq, ofResult]
  rcases (required _ _ : DecodeResult (List Json)) with error | fields
  · rfl
  · simp only [bind, Except.bind, Except.map, Nat.add_zero]
    rcases fieldsCursor decode structFieldType "failed to decode field" 0 fields bytes offset
      with error | ⟨entries, consumed⟩
    · rfl
    · simp only [pure, Except.pure, Cursor.pure, Except.ok.injEq, Prod.mk.injEq]
      exact ⟨rfl, by omega⟩

theorem cursor_decodeBorshEnum (decode : Json → Decoder) (shape : Json) :
    (decodeBorshEnum decode shape).cursor = byteCursor.bind fun byte =>
      (ofResult (required ((shape.get? "variants").bind Json.asArray?)
        ["enum shape has no variants array"])).bind fun variants =>
      (ofResult (required variants[byte.toNat]?
        ["enum variant " ++ toString byte.toNat ++ " not present"])).bind fun variant =>
      (fieldsCursor decode variantFieldType "failed to decode variant field" 0
        (variantFields variant)).bind fun entries =>
        .pure (enumValue (variantName variant) byte.toNat (.ofMap (.ofFields entries))) := by
  funext bytes offset
  simp only [Decoder.cursor, decodeBorshEnum, Cursor.bind, decodeFields_eq, byteCursor]
  rcases byteAt bytes offset with error | byte
  · rfl
  · simp only [bind, Except.bind, Except.map, ofResult]
    rcases (required ((shape.get? "variants").bind Json.asArray?) _ : DecodeResult (List Json))
      with error | variants
    · rfl
    · simp only [Nat.add_zero]
      rcases (required variants[byte.toNat]? _ : DecodeResult Json) with error | variant
      · rfl
      · simp only [Nat.add_zero]
        rcases fieldsCursor decode variantFieldType "failed to decode variant field" 0
            (variantFields variant) bytes (offset + 1) with error | ⟨entries, consumed⟩
        · rfl
        · simp only [pure, Except.pure, Cursor.pure, Except.ok.injEq, Prod.mk.injEq]
          exact ⟨rfl, by omega⟩

/-! ### The decoder is local -/

theorem local_decodeOption (h : decode.cursor.Local) : (decodeOption decode).cursor.Local := by
  rw [cursor_decodeOption]
  refine local_byteCursor.bind fun _ => ?_
  split_ifs
  · exact .pure
  · exact (local_ofResult _).bind fun _ => h

theorem local_decodeVec (h : decode.cursor.Local) : (decodeVec decode).cursor.Local := by
  rw [cursor_decodeVec]
  exact (local_unsignedCursor 4).bind fun len => (local_ofResult _).bind fun _ =>
    (local_elementsCursor h len).bind fun _ => .pure

theorem local_decodeArray (h : decode.cursor.Local) (len : ℕ) :
    (decodeArray decode len).cursor.Local := by
  rw [cursor_decodeArray]
  exact (local_elementsCursor h len).bind fun _ => .pure

theorem local_decodeBorshStruct {decode : Json → Decoder} (h : ∀ ty, (decode ty).cursor.Local)
    (shape : Json) : (decodeBorshStruct decode shape).cursor.Local := by
  rw [cursor_decodeBorshStruct]
  exact (local_ofResult _).bind fun fields =>
    (local_fieldsCursor h _ _ 0 fields).bind fun _ => .pure

theorem local_decodeBorshEnum {decode : Json → Decoder} (h : ∀ ty, (decode ty).cursor.Local)
    (shape : Json) : (decodeBorshEnum decode shape).cursor.Local := by
  rw [cursor_decodeBorshEnum]
  exact local_byteCursor.bind fun _ => (local_ofResult _).bind fun _ =>
    (local_ofResult _).bind fun _ =>
    (local_fieldsCursor h _ _ 0 _).bind fun _ => .pure

/-- **The decoder is local**, for every shape and type and to every depth. -/
theorem local_within (ext : Externals) (idl : Json) (depth : ℕ) :
    (∀ shape, (decodeShapeWithin ext idl depth shape).cursor.Local) ∧
      ∀ ty, (decodeTypeWithin ext idl depth ty).cursor.Local := by
  induction depth with
  | zero => exact ⟨fun shape => by rw [decodeShapeWithin]; exact local_error _,
      fun ty => by rw [decodeTypeWithin]; exact local_error _⟩
  | succ _ ih =>
    obtain ⟨ihShape, ihType⟩ := ih
    constructor
    · intro shape
      rw [decodeShapeWithin]
      split
      · split_ifs
        · exact local_decodeBorshStruct ihType shape
        · exact local_decodeBorshEnum ihType shape
        · exact local_error _
      · exact local_error _
    · intro ty
      cases ty with
      | string primitive =>
        rw [decodeTypeWithin]
        exact local_decodeBorshPrimitive ext primitive
      | object =>
        rw [decodeTypeWithin]
        split
        · exact local_decodeOption (ihType _)
        · split
          · exact local_decodeVec (ihType _)
          · split
            · exact local_error _
            · exact local_decodeArray (ihType _) _
            · split
              · split
                · exact ihShape _
                · exact local_error _
              · split_ifs
                · exact ihShape _
                · exact local_error _
      | _ =>
        simp only [decodeTypeWithin]
        exact local_error _

end LogosInspector.Decode
