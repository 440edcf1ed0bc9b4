import Mathlib

/-!
# Text as the source reads it

A Rust `str` is a sequence of Unicode scalar values, and so is a `Text` here: the list of
its characters. Texts are ordered as `str` is, by their characters, which is the order of
their UTF-8 encodings; the `len` of a `str` is the number of bytes of that encoding,
`Text.byteLength`.

Besides, the file has the few operations on text that the source takes from its standard
library. Messages, which nothing reads back, are Lean's `String`s.
-/

namespace LogosInspector

/-- A text: its characters. -/
abbrev Text := List Char

instance : LawfulBEq Text := inferInstance

namespace Text

/-- A text as part of a message. -/
def toMessage (t : Text) : String := String.ofList t

/-- The UTF-8 encoding of a text. -/
def bytes (t : Text) : List UInt8 := t.flatMap String.utf8EncodeChar

/-- The length of the UTF-8 encoding of a text. -/
def byteLength (t : Text) : ℕ := (t.map Char.utf8Size).sum

/-- The decimal digits of a number. -/
def ofNat (n : ℕ) : Text := Nat.toDigits 10 n

/-- The text of an integer, in decimal digits. -/
def ofInt (n : ℤ) : Text := if n < 0 then '-' :: ofNat n.natAbs else ofNat n.natAbs

/-- The text that bytes encode in UTF-8, as `str::from_utf8` reads them. -/
def ofBytes? (bytes : List UInt8) : Option Text :=
  bytes.toByteArray.utf8Decode?.map Array.toList

/-- A control character: general category `Cc`. -/
def isControl (c : Char) : Bool :=
  c.toNat < 0x20 || (0x7f ≤ c.toNat && c.toNat < 0xa0)

/-- A character with the Unicode property `White_Space`, as `str::trim` drops. -/
def isWhitespace (c : Char) : Bool :=
  (0x9 ≤ c.toNat && c.toNat ≤ 0xd) || c.toNat == 0x20 || c.toNat == 0x85 || c.toNat == 0xa0 ||
    c.toNat == 0x1680 || (0x2000 ≤ c.toNat && c.toNat ≤ 0x200a) || c.toNat == 0x2028 ||
    c.toNat == 0x2029 || c.toNat == 0x202f || c.toNat == 0x205f || c.toNat == 0x3000

/-- The text without its leading and trailing white space. -/
def trim (t : Text) : Text :=
  ((t.dropWhile isWhitespace).reverse.dropWhile isWhitespace).reverse

/-- What follows `start` in a text that begins with it. -/
def dropStart? (t start : Text) : Option Text :=
  if start <+: t then some (t.drop start.length) else none

/-- A decimal digit. -/
def isAsciiDigit (c : Char) : Bool := '0' ≤ c && c ≤ '9'

/-- A hexadecimal digit of either case. -/
def isAsciiHexdigit (c : Char) : Bool :=
  isAsciiDigit c || ('a' ≤ c && c ≤ 'f') || ('A' ≤ c && c ≤ 'F')

/-- A hexadecimal digit as the source writes it itself. -/
def isLowerHexdigit (c : Char) : Bool := isAsciiDigit c || ('a' ≤ c && c ≤ 'f')

/-- The text with its upper-case letters put in lower case. -/
def toAsciiLowercase (t : Text) : Text := t.map Char.toLower

/-- The hexadecimal digit of a number below sixteen. -/
def hexDigit (n : ℕ) : Char :=
  (['0', '1', '2', '3', '4', '5', '6', '7', '8', '9', 'a', 'b', 'c', 'd', 'e', 'f'][n % 16]?).getD
    '0'

/-- Bytes in hexadecimal, two digits a byte. -/
def hexEncode (bytes : List UInt8) : Text :=
  bytes.flatMap fun b => [hexDigit (b.toNat / 16), hexDigit b.toNat]

/-! ### Encodings determine their text -/

theorem bytes_injective : Function.Injective bytes := by
  intro a b h
  have henc : a.utf8Encode = b.utf8Encode := congrArg List.toByteArray h
  have hdec := congrArg ByteArray.utf8Decode? henc
  simpa [List.utf8Decode?_utf8Encode] using hdec

@[simp] theorem ofBytes?_bytes (t : Text) : ofBytes? t.bytes = some t := by
  have henc : t.bytes.toByteArray = t.utf8Encode := rfl
  rw [ofBytes?, henc, List.utf8Decode?_utf8Encode, Option.map_some]

theorem length_bytes (t : Text) : t.bytes.length = t.byteLength := by
  simp [bytes, byteLength, List.length_flatMap, String.length_utf8EncodeChar]

theorem hexDigit_inj {m n : ℕ} (h : hexDigit m = hexDigit n) : m % 16 = n % 16 := by
  have hsmall : ∀ i < 16, ∀ j < 16, hexDigit i = hexDigit j → i = j := by decide
  refine hsmall _ (Nat.mod_lt m (by omega)) _ (Nat.mod_lt n (by omega)) ?_
  simpa [hexDigit] using h

theorem hexEncode_injective : Function.Injective hexEncode := by
  intro a b h
  induction a generalizing b with
  | nil =>
    cases b with
    | nil => rfl
    | cons y b => cases h
  | cons x a ih =>
    cases b with
    | nil => cases h
    | cons y b =>
      simp only [hexEncode, List.flatMap_cons, List.cons_append, List.nil_append,
        List.cons.injEq] at h
      obtain ⟨hhigh, hlow, hrest⟩ := h
      have hx := x.toNat_lt
      have hy := y.toNat_lt
      have hhigh' := hexDigit_inj hhigh
      have hlow' := hexDigit_inj hlow
      have hxy : x = y := UInt8.toNat_inj.1 (by omega)
      rw [hxy, ih hrest]

/-! ### Trimmed text -/

variable {t : Text} {c : Char}

/-- A text that has no white space at its ends. -/
theorem trim_eq_self (hhead : ∀ c ∈ t.head?, isWhitespace c = false)
    (hlast : ∀ c ∈ t.getLast?, isWhitespace c = false) : t.trim = t := by
  have hdrop : ∀ l : Text, (∀ c ∈ l.head?, isWhitespace c = false) →
      l.dropWhile isWhitespace = l := by
    intro l hl
    cases l with
    | nil => rfl
    | cons c l => rw [List.dropWhile_cons_of_neg (by simp [hl c rfl])]
  unfold trim
  rw [hdrop t hhead, hdrop _ (by simpa using hlast), List.reverse_reverse]

theorem trim_of_all (h : ∀ c ∈ t, isWhitespace c = false) : t.trim = t :=
  trim_eq_self (fun c hc => h c (List.mem_of_mem_head? hc))
    fun c hc => h c (List.mem_of_mem_getLast? hc)

/-! ### Hexadecimal text -/

/-- There are few hexadecimal digits. -/
theorem of_isAsciiHexdigit {p : Char → Bool}
    (h : ∀ n < 103, isAsciiHexdigit (Char.ofNat n) = true → p (Char.ofNat n) = true)
    (hc : isAsciiHexdigit c = true) : p c = true := by
  have hrange : c.toNat < 103 := by
    simp only [isAsciiHexdigit, isAsciiDigit, Bool.or_eq_true, Bool.and_eq_true,
      decide_eq_true_eq] at hc
    have hle : ∀ d : Char, c ≤ d ↔ c.toNat ≤ d.toNat := fun d => Iff.rfl
    have h9 : '9'.toNat = 57 := rfl
    have hf : 'f'.toNat = 102 := rfl
    have hF : 'F'.toNat = 70 := rfl
    simp only [hle] at hc
    omega
  have := h c.toNat hrange
  rw [Char.ofNat_toNat] at this
  exact this hc

theorem isWhitespace_of_isAsciiHexdigit (h : isAsciiHexdigit c = true) :
    isWhitespace c = false := by
  simpa using of_isAsciiHexdigit (p := fun c => !isWhitespace c) (by decide) h

theorem toLower_toLower_of_isAsciiHexdigit (h : isAsciiHexdigit c = true) :
    c.toLower.toLower = c.toLower :=
  eq_of_beq (of_isAsciiHexdigit (p := fun c => c.toLower.toLower == c.toLower) (by decide) h)

section Hex

variable {t : Text} (h : ∀ c ∈ t, isAsciiHexdigit c = true)
include h

theorem toAsciiLowercase_idem_of_hex :
    t.toAsciiLowercase.toAsciiLowercase = t.toAsciiLowercase := by
  unfold toAsciiLowercase
  rw [List.map_map]
  exact List.map_congr_left fun c hc => toLower_toLower_of_isAsciiHexdigit (h c hc)

/-- A hexadecimal text does not begin with `0x`. -/
theorem dropStart?_of_hex {start : Text} {c : Char} (hc : c ∈ start)
    (hno : isAsciiHexdigit c = false) : t.dropStart? start = none := by
  refine if_neg fun hstart => ?_
  have := h c (hstart.subset hc)
  simp [hno] at this

end Hex

end Text

end LogosInspector
