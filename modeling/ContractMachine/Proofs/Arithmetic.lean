import ContractMachine.Proofs.Effects
import ContractMachine.Proofs.Wire.Integers
import Mathlib.Order.Bounds.Basic

/-! Arithmetic is exact or says why not. Each arithmetic type holds a range of integers; two values
of one type give the value of the exact result if it is in the range, and in every other case the
fault is the one that fits. -/

namespace ContractMachine

/-! ### Ranges -/

/-- The numbers that an arithmetic type holds. -/
def DataType.range : DataType → Set Int
  | .amount => {n | -2 ^ 63 ≤ n ∧ n < 2 ^ 63}
  | .int32 => {n | -2 ^ 31 ≤ n ∧ n < 2 ^ 31}
  | .bigInteger => {n | -2 ^ 2047 ≤ n ∧ n < 2 ^ 2047}
  | _ => ∅

namespace Value

/-- The longest big integers of the wire format have 2047 binary digits and a sign. -/
theorem encodable_bigInteger_iff {n : Int} :
    (bigInteger n).encodable = true ↔ n ∈ DataType.bigInteger.range := by
  have hbits : ∀ k : Nat, TwosComplement.magnitudeBits n ≤ k ↔ -2 ^ k ≤ n ∧ n < 2 ^ k := by
    intro k
    rw [TwosComplement.magnitudeBits_le_iff, Nat.pow_eq, Nat.cast_pow, Nat.cast_ofNat]
  rw [DataType.range, Set.mem_ofPred_eq, ← hbits]
  simp only [encodable, payloadLength?, TwosComplement.minWidth, maxBigInteger,
    decide_eq_true_eq]
  omega

theorem exists_ofNumber?_iff {t : DataType} {n : Int} :
    (∃ v, ofNumber? t n = some v) ↔ n ∈ t.range := by
  cases t with
  | amount => simp [ofNumber?, int64?, DataType.range]
  | int32 => simp [ofNumber?, int32?, DataType.range]
  | bigInteger =>
      rw [← encodable_bigInteger_iff]
      simp [ofNumber?]
  | _ => simp [ofNumber?, DataType.range]

/-- A type has a value for each number of its range, and no other for it. -/
theorem ofNumber?_eq_some_iff {t : DataType} {n : Int} {v : Value} :
    ofNumber? t n = some v ↔ n ∈ t.range ∧ v.type = t ∧ v.number? = some n := by
  constructor
  · intro h
    exact ⟨exists_ofNumber?_iff.mp ⟨v, h⟩, type_of_ofNumber? h, number?_of_ofNumber? h⟩
  · rintro ⟨hrange, rfl, hnumber⟩
    cases v with
    | amount x =>
        cases hnumber
        simp [type, ofNumber?, int64?_eq_some_iff]
    | int32 x =>
        cases hnumber
        simp [type, ofNumber?, int32?_eq_some_iff]
    | bigInteger m =>
        cases hnumber
        simp [type, ofNumber?, encodable_bigInteger_iff.mpr hrange]
    | _ => cases hnumber

end Value

/-! ### Exact results -/

/-- The number is the quotient cut off toward zero: the remainder is smaller than the divisor, and
its sign is not against that of the dividend. There is none for a divisor of zero. -/
def IsQuotient (x y n : Int) : Prop :=
  (x - n * y).natAbs < y.natAbs ∧ (0 ≤ x → 0 ≤ x - n * y) ∧ (x ≤ 0 → x - n * y ≤ 0)

theorem isQuotient_iff {x y n : Int} : IsQuotient x y n ↔ y ≠ 0 ∧ x.tdiv y = n := by
  constructor
  · rintro ⟨hsmall, hnonneg, hnonpos⟩
    have hy : y ≠ 0 := by
      rintro rfl
      simp at hsmall
    have hsum : x - n * y + y * n = x := by
      rw [Int.mul_comm y n]
      omega
    refine ⟨hy, ?_⟩
    rcases Int.le_total 0 x with hx | hx
    · have hr := hnonneg hx
      exact ((Int.tdiv_tmod_unique hx hy).mpr ⟨hsum, hr, by omega⟩).1
    · have hr := hnonpos hx
      exact ((Int.tdiv_tmod_unique' hx hy).mpr ⟨hsum, by omega, hr⟩).1
  · rintro ⟨hy, rfl⟩
    have hrest : x - x.tdiv y * y = x.tmod y := by
      have hsum := Int.tmod_add_mul_tdiv x y
      rw [Int.mul_comm] at hsum
      omega
    rw [IsQuotient, hrest]
    refine ⟨?_, fun hx => ((Int.tdiv_tmod_unique hx hy).mp ⟨rfl, rfl⟩).2.1,
      fun hx => ((Int.tdiv_tmod_unique' hx hy).mp ⟨rfl, rfl⟩).2.2⟩
    rw [Int.natAbs_tmod]
    exact Nat.mod_lt _ (Int.natAbs_pos.mpr hy)

/-- The number is what the operation gives on two integers. -/
def BinaryOp.Gives (op : BinaryOp) (x y n : Int) : Prop :=
  match op with
  | add => n = x + y
  | minus => n = x - y
  | multiply => n = x * y
  | divide => IsQuotient x y n
  | min => IsLeast {x, y} n
  | max => IsGreatest {x, y} n

theorem BinaryOp.apply_eq_ok_iff {op : BinaryOp} {x y n : Int} :
    op.apply x y = .ok n ↔ op.Gives x y n := by
  cases op with
  | divide =>
      rw [Gives, isQuotient_iff]
      by_cases hy : y = 0 <;> simp [apply, exact, hy]
  | min =>
      have hmin : BinaryOp.min.exact x y = Min.min x y := (min_def x y).symm
      simp only [apply, Gives, reduceCtorEq, false_and, if_false, hmin, Except.ok.injEq]
      exact ⟨fun h => h ▸ isLeast_pair, isLeast_pair.unique⟩
  | max =>
      have hmax : BinaryOp.max.exact x y = Max.max x y := (max_def x y).symm
      simp only [apply, Gives, reduceCtorEq, false_and, if_false, hmax, Except.ok.injEq]
      exact ⟨fun h => h ▸ isGreatest_pair, isGreatest_pair.unique⟩
  | _ => simp [apply, exact, Gives, eq_comm]

theorem BinaryOp.apply_eq_error_iff {op : BinaryOp} {x y : Int} {fault : Fault} :
    op.apply x y = .error fault ↔ op = .divide ∧ y = 0 ∧ fault = .divisionByZero := by
  rw [apply]
  split <;> simp_all [eq_comm]

/-! ### Outcomes -/

namespace Value

/-- What comes of an operation on two values. -/
inductive Computes (op : BinaryOp) (a b : Value) : Except Fault Value → Prop where
  | mismatch (types : a.type ≠ b.type) : Computes op a b (.error (.mismatch a.type b.type))
  | unsupported (types : a.type = b.type) (arithmetic : a.type.isArithmetic = false) :
      Computes op a b (.error (.unsupported a.type))
  | divisionByZero (types : a.type = b.type) (arithmetic : a.type.isArithmetic = true)
      (division : op = .divide) (zero : b.number? = some 0) :
      Computes op a b (.error .divisionByZero)
  | overflow {x y n} (types : a.type = b.type) (left : a.number? = some x)
      (right : b.number? = some y) (gives : op.Gives x y n) (outside : n ∉ a.type.range) :
      Computes op a b (.error .overflow)
  | exact {x y n v} (types : a.type = b.type) (left : a.number? = some x)
      (right : b.number? = some y) (gives : op.Gives x y n) (inside : n ∈ a.type.range)
      (type : v.type = a.type) (number : v.number? = some n) : Computes op a b (.ok v)

variable {op : BinaryOp} {a b : Value} {outcome : Except Fault Value}

theorem computes_operandFault (h : a.type = b.type → a.type.isArithmetic = false) :
    Computes op a b (.error (operandFault a b)) := by
  rw [operandFault]
  split
  · rename_i htype
    exact .unsupported htype (h htype)
  · rename_i htype
    exact .mismatch htype

theorem computes_binary (op : BinaryOp) (a b : Value) : Computes op a b (binary op a b) := by
  fun_cases binary op a b with
  | case1 x y hy hx htype n hn v hv =>
      obtain ⟨hrange, hresult, hnumber⟩ := ofNumber?_eq_some_iff.mp hv
      exact .exact htype hx hy (BinaryOp.apply_eq_ok_iff.mp hn) hrange hresult hnumber
  | case2 x y hy hx htype n hn hnone =>
      refine .overflow htype hx hy (BinaryOp.apply_eq_ok_iff.mp hn) ?_
      rw [← exists_ofNumber?_iff, hnone]
      simp
  | case3 x y hy hx htype fault hfault =>
      obtain ⟨hop, rfl, rfl⟩ := BinaryOp.apply_eq_error_iff.mp hfault
      exact .divisionByZero htype (isArithmetic_of_number? hx) hop hy
  | case4 x y hy hx htype => exact computes_operandFault fun h => absurd h htype
  | case5 hnone =>
      refine computes_operandFault fun htype => ?_
      cases hx : a.number? with
      | none => rw [← isSome_number?, hx, Option.isSome_none]
      | some x =>
          cases hy : b.number? with
          | none => rw [htype, ← isSome_number?, hy, Option.isSome_none]
          | some y => exact (hnone x y hx hy).elim

theorem binary_eq_operandFault (h : a.type = b.type → a.type.isArithmetic = false) :
    binary op a b = .error (operandFault a b) := by
  rw [binary]
  split
  · rename_i x y hx hy
    refine if_neg fun htype => ?_
    have harithmetic := isArithmetic_of_number? hx
    simp [h htype] at harithmetic
  · rfl

theorem Computes.binary_eq (h : Computes op a b outcome) : binary op a b = outcome := by
  cases h with
  | mismatch types =>
      rw [binary_eq_operandFault fun h => absurd h types, operandFault, if_neg types]
  | unsupported types arithmetic =>
      rw [binary_eq_operandFault fun _ => arithmetic, operandFault, if_pos types]
  | divisionByZero types arithmetic division zero =>
      obtain ⟨x, left⟩ := Option.isSome_iff_exists.mp ((isSome_number? a).trans arithmetic)
      have hfault := BinaryOp.apply_eq_error_iff (x := x).mpr ⟨division, rfl, rfl⟩
      simp only [binary, left, zero, if_pos types, hfault]
  | @overflow x y n types left right gives outside =>
      have hnone : ofNumber? a.type n = none := by
        rw [← exists_ofNumber?_iff] at outside
        simpa [Option.eq_none_iff_forall_ne_some] using outside
      simp only [binary, left, right, if_pos types, BinaryOp.apply_eq_ok_iff.mpr gives, hnone]
  | exact types left right gives inside type number =>
      have hsome := ofNumber?_eq_some_iff.mpr ⟨inside, type, number⟩
      simp only [binary, left, right, if_pos types, BinaryOp.apply_eq_ok_iff.mpr gives, hsome]

/-- Every operation on every two values has the outcome that the rules say and no other. The range
of big integers is that of the wire format. -/
theorem arithmetic_exact_or_faults (op : BinaryOp) (a b : Value) :
    (∀ outcome, binary op a b = outcome ↔ Computes op a b outcome) ∧
      ∀ n, (bigInteger n).encodable = true ↔ n ∈ DataType.bigInteger.range := by
  refine ⟨fun outcome => ⟨?_, Computes.binary_eq⟩, fun n => encodable_bigInteger_iff⟩
  rintro rfl
  exact computes_binary op a b

-- the one quotient of two amounts that is no amount
example : binary .divide (.amount Int64.minValue) (.amount (-1)) = .error .overflow := by decide

end Value

end ContractMachine
