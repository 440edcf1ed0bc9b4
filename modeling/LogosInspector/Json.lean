import LogosInspector.Table
import LogosInspector.Text

/-!
# JSON values

The JSON values the source reads, `serde_json::Value`. An object is a list of named
fields; a number is what the parser makes of it – a 64-bit natural number, a negative
64-bit integer, or a floating-point number, of which only the printed text is ever used.

The fields of an object in `serde_json` are an ordered map from names to values, and here they are a
`JsonMap`: a table of pairs by their first component. A value that is an object is read as its map
by `Json.asMap?`, and a map is written as an object by `Json.ofMap`, which lists the fields in
their order. Two maps with the same fields are the same object (`JsonMap.ext_get?`).
-/

namespace LogosInspector

/-- A JSON number. -/
inductive JsonNumber
  /-- A natural number of 64 bits. -/
  | posInt (n : UInt64)
  /-- The negative integer `-n`. -/
  | negInt (n : ℕ)
  /-- A floating-point number, by its printed text. -/
  | float (text : Text)
  deriving DecidableEq

/-- A JSON value. -/
inductive Json
  /-- `null` -/
  | null
  /-- `true` or `false` -/
  | bool (value : Bool)
  /-- A number. -/
  | number (value : JsonNumber)
  /-- A text. -/
  | string (value : Text)
  /-- An array. -/
  | array (values : List Json)
  /-- An object, by its fields. -/
  | object (fields : List (Text × Json))

/-- The text of a number. -/
def JsonNumber.toText : JsonNumber → Text
  | posInt n => Text.ofNat n.toNat
  | negInt n => '-' :: Text.ofNat n
  | float text => text

namespace Json

/-- The field of an object; every other value has none. -/
def get? (value : Json) (field : String) : Option Json :=
  match value with
  | .object fields => fields.lookup field.toList
  | _ => none

def asArray? : Json → Option (List Json)
  | .array values => some values
  | _ => none

def asObject? : Json → Option (List (Text × Json))
  | .object fields => some fields
  | _ => none

def asStr? : Json → Option Text
  | .string value => some value
  | _ => none

def asU64? : Json → Option ℕ
  | .number (.posInt n) => some n.toNat
  | _ => none

end Json

/-! ### Equality of values -/

namespace Json

mutual

/-- Whether two values are equal. -/
def beq : Json → Json → Bool
  | .null, .null => true
  | .bool a, .bool b => a == b
  | .number a, .number b => a == b
  | .string a, .string b => a == b
  | .array as, .array bs => beqList as bs
  | .object as, .object bs => beqFields as bs
  | _, _ => false

def beqList : List Json → List Json → Bool
  | [], [] => true
  | a :: as, b :: bs => beq a b && beqList as bs
  | _, _ => false

def beqFields : List (Text × Json) → List (Text × Json) → Bool
  | [], [] => true
  | (k, a) :: as, (l, b) :: bs => k == l && beq a b && beqFields as bs
  | _, _ => false

end

mutual

theorem beq_iff : ∀ a b : Json, beq a b = true ↔ a = b
  | .null, b => by cases b <;> simp [beq]
  | .bool a, b => by cases b <;> simp [beq]
  | .number a, b => by cases b <;> simp [beq]
  | .string a, b => by cases b <;> simp [beq]
  | .array as, b => by cases b <;> simp [beq, beqList_iff as]
  | .object as, b => by cases b <;> simp [beq, beqFields_iff as]

theorem beqList_iff : ∀ as bs : List Json, beqList as bs = true ↔ as = bs
  | [], bs => by cases bs <;> simp [beqList]
  | a :: as, bs => by cases bs <;> simp [beqList, beq_iff a, beqList_iff as]

theorem beqFields_iff : ∀ as bs : List (Text × Json), beqFields as bs = true ↔ as = bs
  | [], bs => by cases bs <;> simp [beqFields]
  | (k, a) :: as, bs => by
    rcases bs with _ | ⟨⟨l, b⟩, bs⟩
    · simp [beqFields]
    · simp [beqFields, beq_iff a, beqFields_iff as]

end

instance : DecidableEq Json := fun a b => decidable_of_iff (beq a b = true) (beq_iff a b)

end Json

/-! ### Maps -/

/-- The fields of an object, by their names. -/
abbrev JsonMap := Table (fun field : Text × Json => field.1)

namespace JsonMap

def empty : JsonMap := Table.empty

/-- The value of a field. -/
def get? (m : JsonMap) (name : Text) : Option Json := (m.find? name).map Prod.snd

/-- The map with a field set. -/
def set (m : JsonMap) (name : Text) (value : Json) : JsonMap := m.insert (name, value)

/-- The map of some fields, of which the last of a name counts. -/
def ofFields (fields : List (Text × Json)) : JsonMap :=
  fields.foldl (fun m field => m.set field.1 field.2) empty

variable {m m' : JsonMap} {name other : Text} {value : Json}

theorem get?_eq_some : m.get? name = some value ↔ (name, value) ∈ m := by
  rw [get?, Option.map_eq_some_iff]
  constructor
  · rintro ⟨⟨_, _⟩, hf, rfl⟩
    obtain ⟨hm, rfl⟩ := Table.find?_eq_some.1 hf
    exact hm
  · intro hm
    exact ⟨(name, value), Table.find?_eq_some.2 ⟨hm, rfl⟩, rfl⟩

/-- Two maps with the same fields are equal. -/
theorem ext_get? (h : ∀ name, m.get? name = m'.get? name) : m = m' := by
  refine Table.ext_mem fun ⟨name, value⟩ => ?_
  rw [← get?_eq_some, ← get?_eq_some, h]

@[simp] theorem get?_empty : empty.get? name = none := rfl

theorem get?_set : (m.set name value).get? other =
    if other = name then some value else m.get? other := by
  unfold get? set
  rw [Table.find?_insert]
  split_ifs <;> rfl

@[simp] theorem get?_set_self : (m.set name value).get? name = some value := by
  rw [get?_set, if_pos rfl]

theorem get?_foldl_set (fields : List (Text × Json)) (hsort : fields.Pairwise (·.1 < ·.1))
    (m : JsonMap) (name : Text) :
    (fields.foldl (fun m field => m.set field.1 field.2) m).get? name =
      (fields.lookup name).or (m.get? name) := by
  induction fields generalizing m with
  | nil => simp
  | cons field fields ih =>
    obtain ⟨hfirst, hsort⟩ := List.pairwise_cons.1 hsort
    rw [List.foldl_cons, ih hsort, get?_set, List.lookup_cons]
    by_cases hname : name = field.1
    · subst hname
      -- the name does not come again
      have hn : fields.lookup field.1 = none := by
        rw [List.lookup_eq_none_iff]
        intro other hm
        simpa using (hfirst other hm).ne
      simp [hn]
    · have hne : (name == field.1) = false := by simpa using hname
      simp [hname, hne]

theorem lookup_records (m : JsonMap) (name : Text) : m.records.lookup name = m.get? name := by
  unfold get? Table.find?
  induction m.records with
  | nil => rfl
  | cons field _ ih =>
    rw [List.lookup_cons, List.find?_cons]
    by_cases hname : name = field.1
    · simp [hname]
    · have hne : (name == field.1) = false := by simpa using hname
      simp [hne, Ne.symm hname, ih]

/-- The map of the fields of a map is the map. -/
@[simp] theorem ofFields_records (m : JsonMap) : ofFields m.records = m := by
  refine ext_get? fun _ => ?_
  rw [ofFields, get?_foldl_set _ m.sorted, lookup_records]
  simp

end JsonMap

namespace Json

/-- The map of an object. -/
def asMap? : Json → Option JsonMap
  | .object fields => some (JsonMap.ofFields fields)
  | _ => none

def ofMap (m : JsonMap) : Json := .object m.records

@[simp] theorem asMap?_ofMap (m : JsonMap) : (ofMap m).asMap? = some m := by
  simp [ofMap, asMap?]

/-- A field of a value: `Value::get`. -/
def field? (value : Json) (name : Text) : Option Json := value.asMap?.bind (·.get? name)

@[simp] theorem field?_ofMap (m : JsonMap) (name : Text) : (ofMap m).field? name = m.get? name := by
  simp [field?]

end Json

end LogosInspector
