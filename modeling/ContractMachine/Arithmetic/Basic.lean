import ContractMachine.Arithmetic.SquareRoot
import ContractMachine.Instruction

/-! Exact arithmetic on numeric values. Results are computed on integers and then narrowed; what
does not fit its type is an overflow. Division goes toward zero. -/

namespace ContractMachine

/-- Why arithmetic fails. -/
inductive Fault where
  | overflow
  | divisionByZero
  | negativeSqrt
  /-- The operands have different types. -/
  | mismatch (expected found : DataType)
  /-- The operands share a type that the operation does not accept. -/
  | unsupported (found : DataType)
  deriving DecidableEq

/-- The order of two integers. -/
def orderInt (x y : Int) : Ordering :=
  if x < y then .lt else if x = y then .eq else .gt

namespace BinaryOp

/-- The result on integers, for a divisor that is not zero. -/
def exact (op : BinaryOp) (x y : Int) : Int :=
  match op with
  | add => x + y
  | minus => x - y
  | multiply => x * y
  | divide => x.tdiv y
  | min => if x ≤ y then x else y
  | max => if x ≤ y then y else x

def apply (op : BinaryOp) (x y : Int) : Except Fault Int :=
  if op = divide ∧ y = 0 then .error .divisionByZero else .ok (op.exact x y)

end BinaryOp

namespace Value

/-- The number that an arithmetic value holds. -/
def number? : Value → Option Int
  | amount n => some n.toInt
  | int32 n => some n.toInt
  | bigInteger n => some n
  | _ => none

/-- A value of an arithmetic type that holds the number, if one fits. -/
def ofNumber? (type : DataType) (n : Int) : Option Value :=
  match type with
  | .amount => (int64? n).map amount
  | .int32 => (int32? n).map int32
  | .bigInteger => if (bigInteger n).encodable then some (bigInteger n) else none
  | _ => none

def operandFault (a b : Value) : Fault :=
  if a.type = b.type then .unsupported a.type else .mismatch a.type b.type

/-- Apply an operation to two numbers of one type. -/
def binary (op : BinaryOp) (a b : Value) : Except Fault Value :=
  match a.number?, b.number? with
  | some x, some y =>
    if a.type = b.type then
      match op.apply x y with
      | .ok n =>
        match ofNumber? a.type n with
        | some v => .ok v
        | none => .error .overflow
      | .error fault => .error fault
    else .error (operandFault a b)
  | _, _ => .error (operandFault a b)

/-- Order two numbers, or two times, of one type. -/
def order (a b : Value) : Except Fault Ordering :=
  match a, b with
  | amount x, amount y => .ok (orderInt x.toInt y.toInt)
  | timestamp x, timestamp y => .ok (orderInt x.toInt y.toInt)
  | int32 x, int32 y => .ok (orderInt x.toInt y.toInt)
  | bigInteger x, bigInteger y => .ok (orderInt x y)
  | a, b => .error (operandFault a b)

/-- Whether a number is below, equal to or above zero. -/
def sign? (v : Value) : Option Ordering := v.number?.map (orderInt · 0)

end Value

/-- Square root rounded down. -/
def sqrtInt (n : Int) : Except Fault Int :=
  if n < 0 then .error .negativeSqrt else .ok (floorSqrt n.toNat)

/-- Whether an order satisfies the relation. -/
def Relation.test : Relation → Ordering → Bool
  | greater, o => o == .gt
  | greaterEqual, o => o != .lt

end ContractMachine
