import ContractMachine.Proofs.Execution
import ContractMachine.Proofs.Wire.Integers

/-! When arithmetic on amounts and big integers succeeds, stated on integers. -/

namespace ContractMachine

/-! ### Bounds on binary digits -/

/-- The magnitude of the number has at most this many binary digits. The number of digits is
found by search through the expression that the number is written as. -/
class BitBound (n : Int) (bits : outParam Nat) : Prop where
  natAbs_lt : n.natAbs < Nat.pow 2 bits

namespace BitBound

variable {x y : Int} {i j : Nat}

theorem mono {n : Int} {k l : Nat} (h : BitBound n k) (hle : k ≤ l) : BitBound n l :=
  ⟨Nat.lt_of_lt_of_le h.natAbs_lt (Nat.pow_le_pow_right (by decide) hle)⟩

instance (n : Int64) : BitBound n.toInt 64 where
  natAbs_lt := by
    have hlo := n.le_toInt
    have hhi := n.toInt_lt
    have hpow : Nat.pow 2 64 = 18446744073709551616 := rfl
    rw [hpow]
    omega

instance (n : Nat) : BitBound (no_index (OfNat.ofNat n)) (n.log2 + 1) where
  natAbs_lt := Nat.lt_log2_self

instance [hx : BitBound x i] [hy : BitBound y j] : BitBound (x * y) (i + j) where
  natAbs_lt := by
    have h := Nat.mul_lt_mul'' hx.natAbs_lt hy.natAbs_lt
    rwa [Int.natAbs_mul, Nat.pow_eq, Nat.pow_add, ← Nat.pow_eq, ← Nat.pow_eq]

theorem natAbs_add_lt {m n : Nat} (hm : m < Nat.pow 2 i) (hn : n < Nat.pow 2 j) :
    m + n < Nat.pow 2 (max i j + 1) := by
  have hi : Nat.pow 2 i ≤ Nat.pow 2 (max i j) :=
    Nat.pow_le_pow_right (by decide) (Nat.le_max_left i j)
  have hj : Nat.pow 2 j ≤ Nat.pow 2 (max i j) :=
    Nat.pow_le_pow_right (by decide) (Nat.le_max_right i j)
  have hdouble : Nat.pow 2 (max i j + 1) = Nat.pow 2 (max i j) * 2 := Nat.pow_succ ..
  omega

instance [hx : BitBound x i] [hy : BitBound y j] : BitBound (x + y) (max i j + 1) where
  natAbs_lt :=
    Nat.lt_of_le_of_lt (Int.natAbs_add_le x y) (natAbs_add_lt hx.natAbs_lt hy.natAbs_lt)

instance [hx : BitBound x i] [hy : BitBound y j] : BitBound (x - y) (max i j + 1) where
  natAbs_lt :=
    Nat.lt_of_le_of_lt (Int.natAbs_sub_le x y) (natAbs_add_lt hx.natAbs_lt hy.natAbs_lt)

instance [hx : BitBound x i] : BitBound (x.tdiv y) i where
  natAbs_lt := by
    rw [Int.natAbs_tdiv]
    exact Nat.lt_of_le_of_lt (Nat.div_le_self _ _) hx.natAbs_lt

instance (c : Prop) [Decidable c] [hx : BitBound x i] [hy : BitBound y j] :
    BitBound (if c then x else y) (max i j) := by
  split
  · exact hx.mono (Nat.le_max_left i j)
  · exact hy.mono (Nat.le_max_right i j)

instance [BitBound x i] [BitBound y j] : BitBound (BinaryOp.min.exact x y) (max i j) :=
  inferInstanceAs (BitBound (if x ≤ y then x else y) (max i j))

instance [BitBound x i] [BitBound y j] : BitBound (BinaryOp.max.exact x y) (max j i) :=
  inferInstanceAs (BitBound (if x ≤ y then y else x) (max j i))

end BitBound

/-- Numbers of fewer than 2048 binary digits are within what the wire format carries. -/
theorem encodable_of_bitBound {n : Int} {k : Nat} [h : BitBound n k] (hk : k ≤ 2047) :
    (Value.bigInteger n).encodable = true := by
  have hlt := h.natAbs_lt
  have hbits : TwosComplement.magnitudeBits n ≤ k :=
    TwosComplement.magnitudeBits_le_iff.mpr ⟨by omega, by omega⟩
  simp only [Value.encodable, Value.payloadLength?, TwosComplement.minWidth, maxBigInteger,
    decide_eq_true_eq]
  omega

/-! ### Amounts -/

@[simp] theorem exact_add (x y : Int) : BinaryOp.add.exact x y = x + y := rfl

@[simp] theorem exact_minus (x y : Int) : BinaryOp.minus.exact x y = x - y := rfl

@[simp] theorem exact_multiply (x y : Int) : BinaryOp.multiply.exact x y = x * y := rfl

@[simp] theorem exact_divide (x y : Int) : BinaryOp.divide.exact x y = x.tdiv y := rfl

/-- Narrowing succeeds when there is an amount of the same value. -/
theorem present_int64? (n : Int) (P : Int64 → Prop) :
    Present (int64? n) P ↔ ∃ x : Int64, x.toInt = n ∧ P x := by
  simp [Present, int64?_eq_some_iff]

/-- Roots are rounded down, and there is one for every number that is not negative. -/
@[simp] theorem succeeds_sqrtInt (n : Int) (P : Int → Prop) :
    Succeeds (sqrtInt n) P =
      ∃ r, 0 ≤ r ∧ r * r ≤ n ∧ n < (r + 1) * (r + 1) ∧ P r := by
  rw [eq_iff_iff, sqrtInt]
  by_cases hn : n < 0
  · simp only [if_pos hn, succeeds_error, false_iff]
    rintro ⟨r, hr, hle, -⟩
    have := Int.mul_nonneg hr hr
    omega
  · obtain ⟨m, rfl⟩ : ∃ m : Nat, n = m := ⟨n.toNat, by omega⟩
    obtain ⟨hle, hlt⟩ := floorSqrt_spec m
    simp only [if_neg hn, succeeds_ok, Int.toNat_natCast]
    constructor
    · intro hP
      exact ⟨floorSqrt m, by omega, by exact_mod_cast hle, by exact_mod_cast hlt, hP⟩
    · rintro ⟨r, hr, hrle, hrlt, hP⟩
      obtain ⟨k, rfl⟩ := Int.eq_ofNat_of_zero_le hr
      have hkle : k * k ≤ m := by exact_mod_cast hrle
      have hklt : m < (k + 1) * (k + 1) := by exact_mod_cast hrlt
      have hroot : floorSqrt m = k := by
        have h₁ := Nat.mul_self_lt_mul_self_iff.mp (Nat.lt_of_le_of_lt hle hklt)
        have h₂ := Nat.mul_self_lt_mul_self_iff.mp (Nat.lt_of_le_of_lt hkle hlt)
        omega
      exact hroot ▸ hP

namespace Value

@[simp] theorem succeeds_binary_bigInteger (op : BinaryOp) (x y : Int) (P : Value → Prop) :
    Succeeds (Value.binary op (.bigInteger x) (.bigInteger y)) P =
      (¬(op = .divide ∧ y = 0) ∧ (bigInteger (op.exact x y)).encodable = true ∧
        P (.bigInteger (op.exact x y))) := by
  by_cases hzero : op = .divide ∧ y = 0
  · simp [Value.binary, number?, BinaryOp.apply, type, hzero]
  · by_cases hfits : (bigInteger (op.exact x y)).encodable = true <;>
      simp [Value.binary, number?, BinaryOp.apply, type, ofNumber?, hzero, hfits]

@[simp] theorem succeeds_binary_amount (op : BinaryOp) (x y : Int64) (P : Value → Prop) :
    Succeeds (Value.binary op (.amount x) (.amount y)) P =
      (¬(op = .divide ∧ y.toInt = 0) ∧
        ∃ z : Int64, z.toInt = op.exact x.toInt y.toInt ∧ P (.amount z)) := by
  by_cases hzero : op = .divide ∧ y.toInt = 0
  · simp [Value.binary, number?, BinaryOp.apply, type, hzero]
  · rw [← present_int64?]
    cases h : int64? (op.exact x.toInt y.toInt) <;>
      simp [Value.binary, number?, BinaryOp.apply, type, ofNumber?, hzero, h]

@[simp] theorem succeeds_widen (x : Int64) (P : Value → Prop) :
    Succeeds ((amount x).convert .bigInteger) P = P (.bigInteger x.toInt) :=
  succeeds_ok _ P

@[simp] theorem succeeds_narrow (n : Int) (P : Value → Prop) :
    Succeeds ((bigInteger n).convert .amount) P =
      ∃ x : Int64, x.toInt = n ∧ P (.amount x) := by
  rw [← present_int64?]
  cases h : int64? n <;> simp [convert, h]

/-- A delta is positive, the result is an amount, and what is taken away was there. -/
theorem succeeds_move (op : Opcode) (direction : Direction) (x d : Int64) (position : Nat)
    (P : Value → Prop) :
    Succeeds (Value.move op direction (.amount x) (.amount d) position) P =
      (0 < d.toInt ∧ ∃ z : Int64, z.toInt = direction.op.exact x.toInt d.toInt ∧
        (direction = .minus → 0 ≤ z.toInt) ∧ P (.amount z)) := by
  have hnext : ∀ z : Int64, (direction = .minus ∧ (amount z).sign? = some .lt) ↔
      ¬(direction = .minus → 0 ≤ z.toInt) := by
    intro z
    simp only [sign?, number?, Option.map_some, orderInt]
    grind
  have hdivide : ¬(direction.op = .divide ∧ d.toInt = 0) := by
    cases direction <;> simp [Direction.op]
  by_cases hd : 0 < d.toInt
  · have hsign : (amount d).sign? = some .gt := by
      simp only [sign?, number?, Option.map_some, orderInt]
      grind
    simp only [move, hsign, succeeds_bind, succeeds_pure, succeeds_lift, succeeds_binary_amount,
      hdivide, not_false_eq_true, true_and, hd, hnext, ite_not, succeeds_ite_throw]
  · have hsign : (amount d).sign? = some .lt ∨ (amount d).sign? = some .eq := by
      simp only [sign?, number?, Option.map_some, orderInt]
      grind
    rcases hsign with hsign | hsign <;> simp [move, hsign, hd]

@[simp] theorem succeeds_move_add (op : Opcode) (x d : Int64) (position : Nat)
    (P : Value → Prop) :
    Succeeds (Value.move op .add (.amount x) (.amount d) position) P =
      (0 < d.toInt ∧ x.toInt + d.toInt < 9223372036854775808 ∧
        P (.amount (.ofInt (x.toInt + d.toInt)))) := by
  rw [succeeds_move, eq_iff_iff]
  refine and_congr_right fun hd => ?_
  have hlo := x.le_toInt
  constructor
  · rintro ⟨z, hz, -, hP⟩
    have hsum : z.toInt = x.toInt + d.toInt := hz
    rw [← hsum, Int64.ofInt_toInt]
    exact ⟨z.toInt_lt, hP⟩
  · rintro ⟨hfits, hP⟩
    have hsum : (Int64.ofInt (x.toInt + d.toInt)).toInt = x.toInt + d.toInt :=
      Int64.toInt_ofInt_of_le (by omega) (by omega)
    exact ⟨_, hsum, by simp, hP⟩

@[simp] theorem succeeds_move_minus (op : Opcode) (x d : Int64) (position : Nat)
    (P : Value → Prop) :
    Succeeds (Value.move op .minus (.amount x) (.amount d) position) P =
      (0 < d.toInt ∧ d.toInt ≤ x.toInt ∧ P (.amount (.ofInt (x.toInt - d.toInt)))) := by
  rw [succeeds_move, eq_iff_iff]
  refine and_congr_right fun hd => ?_
  have hhi := x.toInt_lt
  constructor
  · rintro ⟨z, hz, hnonneg, hP⟩
    have hdiff : z.toInt = x.toInt - d.toInt := hz
    have hle : 0 ≤ z.toInt := hnonneg rfl
    rw [← hdiff, Int64.ofInt_toInt]
    exact ⟨by omega, hP⟩
  · rintro ⟨hle, hP⟩
    have hdiff : (Int64.ofInt (x.toInt - d.toInt)).toInt = x.toInt - d.toInt :=
      Int64.toInt_ofInt_of_le (by omega) (by omega)
    exact ⟨_, hdiff, fun _ => by omega, hP⟩

end Value

/-! ### Comparisons -/

@[simp] theorem Value.order_amount (x y : Int64) :
    order (amount x) (amount y) = .ok (orderInt x.toInt y.toInt) := rfl

@[simp] theorem Value.order_bigInteger (x y : Int) :
    order (bigInteger x) (bigInteger y) = .ok (orderInt x y) := rfl

@[simp] theorem test_greater (x y : Int) :
    (Relation.greater.test (orderInt x y) = true) = (y < x) := by
  simp only [Relation.test, orderInt]
  grind

@[simp] theorem test_greaterEqual (x y : Int) :
    (Relation.greaterEqual.test (orderInt x y) = true) = (y ≤ x) := by
  simp only [Relation.test, orderInt]
  grind

end ContractMachine
