import ContractMachine.Text.Utf8
import ContractMachine.DataType
import ContractMachine.Identifier

/-! Typed values: the zero of a type, conversion between the two integer types that have one,
and the total order by type first and payload second. -/

namespace ContractMachine

/-- A value of one of the ten data types. Texts and big integers may be longer than the wire
format carries. -/
inductive Value where
  | address (a : Address)
  | account (a : Address)
  | amount (n : Int64)
  | int32 (n : Int32)
  | boolean (b : Bool)
  | shortText (s : String)
  | timestamp (n : Int64)
  | tokenId (t : TokenId)
  | bigInteger (n : Int)
  | dataType (t : DataType)
  deriving DecidableEq

/-- Why a conversion fails. -/
inductive ConvertError where
  | unsupported (source target : DataType)
  | outOfRange (target : DataType)
  deriving DecidableEq

/-- The label of the cause. -/
def ConvertError.name : ConvertError → String
  | unsupported _ _ => "Unsupported"
  | outOfRange _ => "OutOfRange"

def ConvertError.message : ConvertError → String
  | unsupported source target => s!"cannot convert {source.name} to {target.name}"
  | outOfRange target => s!"value out of range for {target.name}"

/-- Longest text, in bytes, that the wire format carries. -/
def maxShortText : Nat := 140

/-- Longest big integer, in bytes, that the wire format carries. -/
def maxBigInteger : Nat := 256

namespace Value

def type : Value → DataType
  | address _ => .address
  | account _ => .account
  | amount _ => .amount
  | int32 _ => .int32
  | boolean _ => .boolean
  | shortText _ => .shortText
  | timestamp _ => .timestamp
  | tokenId _ => .tokenId
  | bigInteger _ => .bigInteger
  | dataType _ => .dataType

/-- The value of an unset slot. Identifiers and types have none. -/
def zero? : DataType → Option Value
  | .amount => some (amount 0)
  | .int32 => some (int32 0)
  | .boolean => some (boolean false)
  | .shortText => some (shortText "")
  | .timestamp => some (timestamp 0)
  | .bigInteger => some (bigInteger 0)
  | .address | .account | .tokenId | .dataType => none

theorem type_of_zero? {t : DataType} {v : Value} (h : zero? t = some v) : v.type = t := by
  cases t <;> cases h <;> rfl

/-- The account that an address or account value names. -/
def account? : Value → Option Address
  | address a | account a => some a
  | _ => none

/-- Amounts widen to big integers; big integers narrow to amounts when they fit in 64 bits.
Nothing else converts, not even to its own type. -/
def convert (v : Value) (target : DataType) : Except ConvertError Value :=
  match v, target with
  | amount n, .bigInteger => .ok (bigInteger n.toInt)
  | bigInteger n, .amount =>
    match int64? n with
    | some x => .ok (amount x)
    | none => .error (.outOfRange .amount)
  | v, target => .error (.unsupported v.type target)

/-- Payload length and its bound, for the types whose length varies. -/
def payloadLength? : Value → Option (Nat × Nat)
  | shortText s => some (Text.size s, maxShortText)
  | bigInteger n => some (TwosComplement.minWidth n, maxBigInteger)
  | _ => none

/-- Whether the wire format carries the value. -/
def encodable (v : Value) : Bool :=
  match v.payloadLength? with
  | some (length, bound) => length ≤ bound
  | none => true

/-- Payload part of the sort key. Texts compare by code point, which is their byte order. -/
def payloadKey : Value → List Int
  | address a | account a => a.sortKey
  | amount n | timestamp n => [n.toInt]
  | int32 n => [n.toInt]
  | boolean b => [if b then 1 else 0]
  | shortText s => s.toList.map fun c => Int.ofNat c.toNat
  | tokenId t => t.sortKey
  | bigInteger n => [n]
  | dataType t => [Int.ofNat t.code.toNat]

def sortKey (v : Value) : List Int := Int.ofNat v.type.code.toNat :: v.payloadKey

theorem sortKey_injective {v w : Value} (h : v.sortKey = w.sortKey) : v = w := by
  obtain ⟨hcode, hpayload⟩ := List.cons.inj h
  have htype : v.type = w.type :=
    DataType.code_injective (UInt8.toNat_inj.mp (Int.ofNat.inj hcode))
  cases v <;> cases w <;> cases htype
  case address.address => exact congrArg _ (FixedBytes.sortKey_injective hpayload)
  case account.account => exact congrArg _ (FixedBytes.sortKey_injective hpayload)
  case amount.amount => exact congrArg _ (Int64.toInt_inj.mp (List.cons.inj hpayload).1)
  case int32.int32 => exact congrArg _ (Int32.toInt_inj.mp (List.cons.inj hpayload).1)
  case boolean.boolean b c => cases b <;> cases c <;> simp_all [payloadKey]
  case shortText.shortText =>
    refine congrArg _ (String.toList_inj.mp ((List.map_inj_right fun c d h => ?_).mp hpayload))
    exact Char.toNat_inj.mp (Int.ofNat.inj h)
  case timestamp.timestamp => exact congrArg _ (Int64.toInt_inj.mp (List.cons.inj hpayload).1)
  case tokenId.tokenId => exact congrArg _ (TokenId.sortKey_injective hpayload)
  case bigInteger.bigInteger => exact congrArg _ (List.cons.inj hpayload).1
  case dataType.dataType =>
    exact congrArg _ (DataType.code_injective
      (UInt8.toNat_inj.mp (Int.ofNat.inj (List.cons.inj hpayload).1)))

instance : SortKey Value where
  key := sortKey
  key_injective := sortKey_injective

end Value

end ContractMachine
