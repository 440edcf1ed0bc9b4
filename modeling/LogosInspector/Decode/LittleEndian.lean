import Mathlib

/-!
# Little-endian numbers

A number is written in a number of bytes, the lowest first (`leBytes`). To read it, each byte is
shifted to its place (`ofLeBytes`); that is the value of the digits to base `256` (`leValue`). A
signed number is read in sixteen bytes, to which fewer bytes are extended by their sign
(`signedOfLeBytes_extend`).
-/

namespace LogosInspector

open List

/-- A number in some bytes, the lowest first. -/
def leBytes : ℕ → ℕ → List UInt8
  | 0, _ => []
  | width + 1, n => n.toUInt8 :: leBytes width (n / 256)

/-- The number of some bytes, each shifted to its place. -/
def ofLeBytes (bytes : List UInt8) : ℕ :=
  bytes.zipIdx.foldl (fun value (byte, index) => value ||| byte.toNat <<< (8 * index)) 0

/-- The number of sixteen bytes in two's complement. -/
def signedOfLeBytes (bytes : List UInt8) : ℤ :=
  if ofLeBytes bytes < 2 ^ 127 then ofLeBytes bytes else (ofLeBytes bytes : ℤ) - 2 ^ 128

/-- The value of some digits to base `256`. -/
def leValue : List UInt8 → ℕ
  | [] => 0
  | byte :: bytes => byte.toNat + 256 * leValue bytes

theorem and_high_eq_zero (byte : UInt8) : byte &&& 0x80 = 0 ↔ byte.toNat < 128 := by
  have hsmall : ∀ n < 256, n &&& 128 = 0 ↔ n < 128 := by decide +kernel
  rw [← hsmall _ byte.toNat_lt, ← UInt8.toNat_inj, UInt8.toNat_and]
  rfl

theorem foldl_shift (bytes : List UInt8) (index value : ℕ) (h : value < 256 ^ index) :
    (bytes.zipIdx index).foldl (fun value (byte, index) => value ||| byte.toNat <<< (8 * index))
      value = value + 256 ^ index * leValue bytes := by
  induction bytes generalizing index value with
  | nil => simp [leValue]
  | cons byte _ ih =>
    have hpow : 2 ^ (8 * index) = 256 ^ index := by rw [pow_mul]; norm_num
    have hor : value ||| byte.toNat <<< (8 * index) = value + 256 ^ index * byte.toNat := by
      rw [Nat.or_comm, ← Nat.shiftLeft_add_eq_or_of_lt (hpow ▸ h), Nat.shiftLeft_eq, hpow]
      ring
    have hbyte : byte.toNat ≤ 255 := Nat.le_of_lt_succ byte.toNat_lt
    rw [zipIdx_cons, foldl_cons]
    simp only
    rw [hor, ih, leValue, pow_succ]
    · ring
    · rw [pow_succ]
      nlinarith

theorem ofLeBytes_eq (bytes : List UInt8) : ofLeBytes bytes = leValue bytes := by
  rw [ofLeBytes, foldl_shift bytes 0 0 (by simp)]
  simp

theorem leValue_leBytes {width n : ℕ} (h : n < 256 ^ width) : leValue (leBytes width n) = n := by
  induction width generalizing n with
  | zero =>
    rw [pow_zero] at h
    simp only [leBytes, leValue]
    omega
  | succ _ ih =>
    rw [pow_succ] at h
    rw [leBytes, leValue, ih (Nat.div_lt_of_lt_mul (by omega))]
    have : n.toUInt8.toNat = n % 256 := rfl
    omega

theorem leValue_append (bytes more : List UInt8) :
    leValue (bytes ++ more) = leValue bytes + 256 ^ bytes.length * leValue more := by
  induction bytes with
  | nil => simp [leValue]
  | cons _ _ ih =>
    simp only [cons_append, leValue, ih, length_cons, pow_succ]
    ring

theorem leValue_replicate_zero (n : ℕ) : leValue (List.replicate n 0) = 0 := by
  induction n with
  | zero => rfl
  | succ _ ih => simp [replicate_succ, leValue, ih]

theorem leValue_replicate_high (n : ℕ) : leValue (List.replicate n 0xff) + 1 = 256 ^ n := by
  induction n with
  | zero => rfl
  | succ _ _ =>
    have : (0xff : UInt8).toNat = 255 := rfl
    simp only [replicate_succ, leValue, pow_succ, this]
    omega

theorem leValue_lt (bytes : List UInt8) : leValue bytes < 256 ^ bytes.length := by
  induction bytes with
  | nil => simp [leValue]
  | cons byte _ _ =>
    have hbyte : byte.toNat < 256 := byte.toNat_lt
    simp only [leValue, length_cons, pow_succ]
    omega

theorem length_leBytes (width n : ℕ) : (leBytes width n).length = width := by
  induction width generalizing n with
  | zero => rfl
  | succ _ ih => simp [leBytes, ih]

/-- Bytes are extended to sixteen by the sign that their highest bit gives. -/
theorem signedOfLeBytes_extend {bytes : List UInt8} {high : UInt8}
    (hlast : bytes.getLast? = some high) (hlen : bytes.length ≤ 16) :
    signedOfLeBytes (bytes ++ List.replicate (16 - bytes.length)
        (if high &&& 0x80 = 0 then 0 else 0xff)) =
      if 2 * leValue bytes < 256 ^ bytes.length then (leValue bytes : ℤ)
      else (leValue bytes : ℤ) - 256 ^ bytes.length := by
  obtain ⟨low, rfl⟩ := getLast?_eq_some_iff.1 hlast
  have hlow := leValue_lt low
  have hhigh : high.toNat < 256 := high.toNat_lt
  have hval : leValue (low ++ [high]) = leValue low + 256 ^ low.length * high.toNat := by
    rw [leValue_append]
    simp [leValue]
  have hpow : 256 ^ (low ++ [high]).length = 256 * 256 ^ low.length := by
    rw [length_append, length_singleton, pow_succ, Nat.mul_comm]
  have hwide : 256 ^ (low ++ [high]).length * 256 ^ (16 - (low ++ [high]).length) = 2 ^ 128 := by
    rw [← pow_add, Nat.add_sub_cancel' hlen]
    norm_num
  have hle : 256 ^ (low ++ [high]).length ≤ 2 ^ 128 := by
    rw [← hwide]
    exact Nat.le_mul_of_pos_right _ (by positivity)
  have hiff : 2 * leValue (low ++ [high]) < 256 ^ (low ++ [high]).length ↔ high.toNat < 128 := by
    rw [hval, hpow]
    constructor
    · intro h
      by_contra hge
      have : 256 ^ low.length * 128 ≤ 256 ^ low.length * high.toNat :=
        Nat.mul_le_mul_left _ (by omega)
      omega
    · intro h
      have : 256 ^ low.length * (high.toNat + 1) ≤ 256 ^ low.length * 128 :=
        Nat.mul_le_mul_left _ (by omega)
      rw [Nat.mul_succ] at this
      omega
  rw [signedOfLeBytes, ofLeBytes_eq, leValue_append]
  by_cases hsign : high.toNat < 128
  · rw [if_pos ((and_high_eq_zero high).2 hsign), leValue_replicate_zero, if_pos (hiff.2 hsign)]
    have := hiff.2 hsign
    rw [if_pos (by omega)]
    simp
  · rw [if_neg fun h => hsign ((and_high_eq_zero high).1 h), if_neg fun h => hsign (hiff.1 h)]
    have hfill := leValue_replicate_high (16 - (low ++ [high]).length)
    have hge := fun h => hsign (hiff.1 h)
    have htotal : 256 ^ (low ++ [high]).length *
        leValue (List.replicate (16 - (low ++ [high]).length) 0xff) +
          256 ^ (low ++ [high]).length = 2 ^ 128 := by
      rw [← Nat.mul_succ, Nat.succ_eq_add_one, hfill, hwide]
    have htotal' : (256 : ℤ) ^ (low ++ [high]).length *
        leValue (List.replicate (16 - (low ++ [high]).length) 0xff) +
          256 ^ (low ++ [high]).length = 2 ^ 128 := by exact_mod_cast htotal
    rw [if_neg (by omega)]
    push_cast
    linarith

end LogosInspector
