import ContractMachine.Text.Utf8

/-! Writing of counted lists and of byte strings with their length in front. -/

namespace ContractMachine.Writer

def uint16 (n : UInt16) : Bytes := BigEndian.encode 2 n.toNat

def uint32 (n : UInt32) : Bytes := BigEndian.encode 4 n.toNat

def int32 (n : Int32) : Bytes := TwosComplement.encode 4 n.toInt

def int64 (n : Int64) : Bytes := TwosComplement.encode 8 n.toInt

/-- A two-byte length, then the bytes. What is beyond 65535 bytes is cut off. -/
def block (bytes : Bytes) : Bytes :=
  let kept := bytes.take 65535
  BigEndian.encode 2 kept.length ++ kept

def text (s : String) : Bytes := block (Text.encode s)

/-- A one-byte length, then the UTF-8 form. What is beyond 255 bytes is cut off. -/
def shortName (s : String) : Bytes :=
  let kept := (Text.encode s).take 255
  UInt8.ofNat kept.length :: kept

/-- A one-byte count, then the items. The count wraps; every item is written. -/
def list8 {α : Type} (item : α → Bytes) (items : List α) : Bytes :=
  BigEndian.encode 1 items.length ++ items.flatMap item

/-- A two-byte count, then the items. The count wraps; every item is written. -/
def list16 {α : Type} (item : α → Bytes) (items : List α) : Bytes :=
  BigEndian.encode 2 items.length ++ items.flatMap item

end ContractMachine.Writer
