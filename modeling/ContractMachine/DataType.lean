/-! The ten types of values, their bytes, and the classes that operations ask for. -/

namespace ContractMachine

inductive DataType where
  /-- A user's address. -/
  | address
  /-- A user or a contract. -/
  | account
  /-- A signed 64-bit quantity. -/
  | amount
  | int32
  | boolean
  /-- Text of at most 140 bytes. -/
  | shortText
  /-- A signed 64-bit time. -/
  | timestamp
  | tokenId
  | bigInteger
  /-- A data type used as a value; conversions take their target from it. -/
  | dataType
  deriving DecidableEq, Repr, Inhabited

namespace DataType

/-- Every data type, in order. -/
def all : List DataType :=
  [address, account, amount, int32, boolean, shortText, timestamp, tokenId, bigInteger, dataType]

def name : DataType → String
  | address => "Address"
  | account => "Account"
  | amount => "Amount"
  | int32 => "Int32"
  | boolean => "Boolean"
  | shortText => "ShortText"
  | timestamp => "Timestamp"
  | tokenId => "TokenId"
  | bigInteger => "BigInteger"
  | dataType => "DataTypeObj"

/-- The byte that stands for the type. -/
def code : DataType → UInt8
  | address => 1
  | account => 2
  | amount => 3
  | int32 => 4
  | boolean => 5
  | shortText => 6
  | timestamp => 7
  | tokenId => 8
  | bigInteger => 9
  | dataType => 10

/-- The type that a byte stands for; the other bytes are reserved. -/
def ofCode? : UInt8 → Option DataType
  | 1 => some address
  | 2 => some account
  | 3 => some amount
  | 4 => some int32
  | 5 => some boolean
  | 6 => some shortText
  | 7 => some timestamp
  | 8 => some tokenId
  | 9 => some bigInteger
  | 10 => some dataType
  | _ => none

@[simp] theorem ofCode?_code (t : DataType) : ofCode? t.code = some t := by
  cases t <;> decide

theorem code_of_ofCode? {byte : UInt8} {t : DataType} (h : ofCode? byte = some t) :
    t.code = byte := by
  unfold ofCode? at h
  split at h <;> cases h <;> rfl

theorem code_injective {s t : DataType} (h : s.code = t.code) : s = t :=
  Option.some.inj (by rw [← ofCode?_code s, h, ofCode?_code])

/-- Types that arithmetic accepts. -/
def isArithmetic : DataType → Bool
  | amount | int32 | bigInteger => true
  | _ => false

/-- Types that comparison accepts: the arithmetic ones and times. -/
def isComparable : DataType → Bool
  | timestamp => true
  | t => t.isArithmetic

/-- Types that name an account. -/
def isAccountLike : DataType → Bool
  | address | account => true
  | _ => false

/-- Whether some value of type `source` can be converted to type `target`. -/
def convertible (source target : DataType) : Bool :=
  match source, target with
  | amount, bigInteger | bigInteger, amount => true
  | _, _ => false

end DataType

end ContractMachine
