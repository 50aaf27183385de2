import ContractMachine.Bytes.Integer
import Mathlib.Tactic.Ring

/-! Integers are read back from their bytes: unsigned ones up to the width, signed ones if the
width holds them, and every integer from its shortest form. At a fixed width the bytes are also
those of the number that is read from them, so each number has one form there. -/

namespace ContractMachine

namespace BigEndian

@[simp] theorem length_encode (width n : Nat) : (encode width n).length = width := by
  induction width with
  | zero => rfl
  | succ width ih => rw [encode, List.length_cons, ih]

theorem foldl_encode (width n start : Nat) :
    (encode width n).foldl (fun n b => n * 256 + b.toNat) start =
      start * Nat.pow 256 width + n % Nat.pow 256 width := by
  induction width generalizing start with
  | zero => simp [encode, Nat.mod_one]
  | succ width ih =>
      have hdigits : n % Nat.pow 256 (width + 1) =
          n % Nat.pow 256 width + Nat.pow 256 width * (n / Nat.pow 256 width % 256) :=
        Nat.mod_mul
      have hpow : Nat.pow 256 (width + 1) = Nat.pow 256 width * 256 := rfl
      rw [encode, List.foldl_cons, ih, hdigits, hpow, UInt8.toNat_ofNat']
      ring

/-- Of a number, what fits the width is read back. -/
theorem decode_encode (width n : Nat) : decode (encode width n) = n % Nat.pow 256 width := by
  rw [decode, foldl_encode, Nat.zero_mul, Nat.zero_add]

theorem decode_encode_of_lt {width n : Nat} (h : n < Nat.pow 256 width) :
    decode (encode width n) = n := by
  rw [decode_encode, Nat.mod_eq_of_lt h]

theorem foldl_eq (bytes : Bytes) (start : Nat) :
    bytes.foldl (fun n b => n * 256 + b.toNat) start =
      start * Nat.pow 256 bytes.length + decode bytes := by
  induction bytes generalizing start with
  | nil => simp [decode]
  | cons b bytes ih =>
      have hpow : Nat.pow 256 (b :: bytes).length = Nat.pow 256 bytes.length * 256 := rfl
      rw [decode, List.foldl_cons, List.foldl_cons, ih, ih, hpow]
      ring

theorem decode_cons (b : UInt8) (bytes : Bytes) :
    decode (b :: bytes) = b.toNat * Nat.pow 256 bytes.length + decode bytes := by
  rw [decode, List.foldl_cons, foldl_eq, Nat.zero_mul, Nat.zero_add]

theorem decode_lt (bytes : Bytes) : decode bytes < Nat.pow 256 bytes.length := by
  induction bytes with
  | nil => exact Nat.one_pos
  | cons b bytes ih =>
      have hpow : Nat.pow 256 (b :: bytes).length = 256 * Nat.pow 256 bytes.length :=
        Nat.mul_comm _ _
      have hlead : b.toNat * Nat.pow 256 bytes.length ≤ 255 * Nat.pow 256 bytes.length :=
        Nat.mul_le_mul_right _ (Nat.le_of_lt_succ b.toNat_lt)
      rw [decode_cons, hpow]
      omega

/-- Only the last digits are written. -/
theorem encode_mul_add (width k n : Nat) :
    encode width (k * Nat.pow 256 width + n) = encode width n := by
  induction width generalizing k with
  | zero => rfl
  | succ width ih =>
      have hpos : 0 < Nat.pow 256 width := Nat.pow_pos (by omega)
      have hdigits : k * Nat.pow 256 (width + 1) + n = k * 256 * Nat.pow 256 width + n := by
        have hpow : Nat.pow 256 (width + 1) = Nat.pow 256 width * 256 := rfl
        rw [hpow]
        ring
      have hlead : UInt8.ofNat (k * 256 + n / Nat.pow 256 width) =
          UInt8.ofNat (n / Nat.pow 256 width) := by
        apply UInt8.toNat_inj.mp
        simp
      rw [encode, encode, hdigits, ih, Nat.add_comm, Nat.add_mul_div_right _ _ hpos, Nat.add_comm,
        hlead]

/-- Bytes are the digits of the number that is read from them. -/
theorem encode_decode (bytes : Bytes) : encode bytes.length (decode bytes) = bytes := by
  induction bytes with
  | nil => rfl
  | cons b bytes ih =>
      have hlead : (b.toNat * Nat.pow 256 bytes.length + decode bytes) / Nat.pow 256 bytes.length =
          b.toNat := by
        have hpos : 0 < Nat.pow 256 bytes.length := Nat.pow_pos (by omega)
        rw [Nat.add_comm, Nat.add_mul_div_right _ _ hpos, Nat.div_eq_of_lt (decode_lt bytes),
          Nat.zero_add]
      rw [List.length_cons, encode, decode_cons, encode_mul_add, ih, hlead, UInt8.ofNat_toNat]

end BigEndian

namespace TwosComplement

@[simp] theorem length_encode (width : Nat) (n : Int) : (encode width n).length = width :=
  BigEndian.length_encode width _

/-- The numbers of a width that are not negative. -/
def half (width : Nat) : Nat := 128 * Nat.pow 256 (width - 1)

/-- The upper half of the unsigned numbers stands for the negative ones. -/
theorem decode_bigEndian {k m : Nat} (hm : m < Nat.pow 256 (k + 1)) :
    decode (BigEndian.encode (k + 1) m) =
      if m < half (k + 1) then (m : Int) else m - (Nat.pow 256 (k + 1) : Nat) := by
  have hpos : 0 < Nat.pow 256 k := Nat.pow_pos (by omega)
  have hbytes := BigEndian.decode_encode_of_lt hm
  have hdigit : m / Nat.pow 256 k < 256 := Nat.div_lt_of_lt_mul hm
  have hlead : (UInt8.ofNat (m / Nat.pow 256 k)).toNat < 128 ↔ m < half (k + 1) := by
    rw [UInt8.toNat_ofNat', Nat.mod_eq_of_lt hdigit, Nat.div_lt_iff_lt_mul hpos]
    exact .rfl
  rw [BigEndian.encode] at hbytes ⊢
  simp only [decode, hbytes, hlead, List.length_cons, BigEndian.length_encode]
  rfl

theorem decode_encode {width : Nat} {n : Int} (hwidth : 0 < width)
    (hlow : -(half width : Int) ≤ n) (hhigh : n < half width) :
    decode (encode width n) = n := by
  obtain ⟨k, rfl⟩ : ∃ k, width = k + 1 := ⟨width - 1, by omega⟩
  have hhalf : Nat.pow 256 (k + 1) = 2 * half (k + 1) := by
    change Nat.pow 256 k * 256 = 2 * (128 * Nat.pow 256 k)
    omega
  have hencode : encode (k + 1) n =
      BigEndian.encode (k + 1) (n % (Nat.pow 256 (k + 1) : Nat)).toNat := rfl
  by_cases hsign : 0 ≤ n
  · have hmod : n % (Nat.pow 256 (k + 1) : Nat) = n := Int.emod_eq_of_lt hsign (by omega)
    rw [hencode, hmod, decode_bigEndian (by omega), if_pos (by omega)]
    omega
  · have hmod : n % (Nat.pow 256 (k + 1) : Nat) = n + (Nat.pow 256 (k + 1) : Nat) := by
      rw [← Int.add_emod_right, Int.emod_eq_of_lt (by omega) (by omega)]
    rw [hencode, hmod, decode_bigEndian (by omega), if_neg (by omega)]
    omega

theorem bounds_decode {bytes : Bytes} (h : bytes ≠ []) :
    -(half bytes.length : Int) ≤ decode bytes ∧ decode bytes < half bytes.length := by
  cases bytes with
  | nil => exact absurd rfl h
  | cons b bytes =>
      have hvalue := BigEndian.decode_cons b bytes
      have hrest := BigEndian.decode_lt bytes
      have hhalf : half (b :: bytes).length = 128 * Nat.pow 256 bytes.length := rfl
      have hpow : Nat.pow 256 (b :: bytes).length = 256 * Nat.pow 256 bytes.length :=
        Nat.mul_comm _ _
      simp only [decode, hvalue, hhalf, hpow, Int.ofNat_eq_natCast]
      split
      · have hlead : b.toNat * Nat.pow 256 bytes.length ≤ 127 * Nat.pow 256 bytes.length :=
          Nat.mul_le_mul_right _ (by omega)
        omega
      · have hlow : 128 * Nat.pow 256 bytes.length ≤ b.toNat * Nat.pow 256 bytes.length :=
          Nat.mul_le_mul_right _ (by omega)
        have hhigh : b.toNat * Nat.pow 256 bytes.length ≤ 255 * Nat.pow 256 bytes.length :=
          Nat.mul_le_mul_right _ (Nat.le_of_lt_succ b.toNat_lt)
        omega

/-- Bytes are the two's complement of the number that is read from them. -/
theorem encode_decode (bytes : Bytes) : encode bytes.length (decode bytes) = bytes := by
  cases bytes with
  | nil => rfl
  | cons b bytes =>
      have hlt := BigEndian.decode_lt (b :: bytes)
      have hmod : decode (b :: bytes) % Int.ofNat (Nat.pow 256 (b :: bytes).length) =
          BigEndian.decode (b :: bytes) := by
        rw [decode]
        simp only [Int.ofNat_eq_natCast]
        split
        · exact Int.emod_eq_of_lt (by omega) (by omega)
        · rw [Int.sub_emod_right]
          exact Int.emod_eq_of_lt (by omega) (by omega)
      rw [encode, hmod, Int.toNat_natCast, BigEndian.encode_decode]

theorem log2_succ_le_iff {m k : Nat} :
    (if m = 0 then 0 else m.log2 + 1) ≤ k ↔ m < Nat.pow 2 k := by
  split
  · rename_i hzero
    simp [hzero]
  · rename_i hne
    exact Nat.log2_lt hne

/-- The magnitude of a number has at most so many binary digits exactly if as many, and one for the
sign, hold the number. -/
theorem magnitudeBits_le_iff {n : Int} {k : Nat} :
    magnitudeBits n ≤ k ↔ -(Nat.pow 2 k : Int) ≤ n ∧ n < (Nat.pow 2 k : Int) := by
  cases n with
  | ofNat m =>
      rw [magnitudeBits, log2_succ_le_iff, Int.ofNat_eq_natCast]
      omega
  | negSucc m =>
      rw [magnitudeBits, log2_succ_le_iff]
      omega

/-- A width holds a number exactly if it is not below the shortest one. -/
theorem minWidth_le_iff {n : Int} {width : Nat} (hwidth : 0 < width) :
    minWidth n ≤ width ↔ -(half width : Int) ≤ n ∧ n < half width := by
  obtain ⟨k, rfl⟩ : ∃ k, width = k + 1 := ⟨width - 1, by omega⟩
  have hhalf : half (k + 1) = Nat.pow 2 (8 * k + 7) := by
    rw [half, Nat.add_sub_cancel, Nat.pow_eq, Nat.pow_eq, Nat.pow_add, Nat.pow_mul, Nat.mul_comm]
  rw [hhalf, ← magnitudeBits_le_iff, minWidth]
  omega

@[simp] theorem length_encodeMin (n : Int) : (encodeMin n).length = minWidth n :=
  length_encode (minWidth n) n

/-- A number is not spelled in fewer bytes than the shortest spelling has. -/
theorem minWidth_decode_le {bytes : Bytes} {bound : Nat} (h : bytes.length ≤ bound)
    (hbound : 0 < bound) : minWidth (decode bytes) ≤ bound := by
  by_cases hempty : bytes = []
  · subst hempty
    exact hbound
  · obtain ⟨hlow, hhigh⟩ := bounds_decode hempty
    have hwidth := (minWidth_le_iff (List.length_pos_iff.mpr hempty)).mpr ⟨hlow, hhigh⟩
    exact hwidth.trans h

theorem decode_encodeMin (n : Int) : decode (encodeMin n) = n := by
  obtain ⟨hlow, hhigh⟩ := (minWidth_le_iff (Nat.succ_pos _)).mp (Nat.le_refl (minWidth n))
  exact decode_encode (Nat.succ_pos _) hlow hhigh

end TwosComplement

end ContractMachine
