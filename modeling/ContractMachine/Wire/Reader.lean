import ContractMachine.Identifier
import ContractMachine.Text.Utf8
import ContractMachine.Wire.Error

/-! Reading from the front of a byte string. A reader that fails leaves the cursor behind the
parts it has read whole, so reading may go on from there. -/

namespace ContractMachine

/-- The bytes still to be read and the number of bytes before them. -/
structure Cursor where
  position : Nat
  rest : Bytes
  deriving DecidableEq

def Cursor.start (bytes : Bytes) : Cursor := ⟨0, bytes⟩

/-- Number of bytes not yet read. -/
def Cursor.remaining (c : Cursor) : Nat := c.rest.length

abbrev Reader := EStateM DecodeError Cursor

namespace Reader

def position : Reader Nat := fun c => .ok c.position c

/-- Exactly `n` bytes, or none of them. -/
def fixed (n : Nat) : Reader (FixedBytes n) := fun c =>
  if h : (c.rest.take n).length = n then
    .ok ⟨c.rest.take n, h⟩ ⟨c.position + n, c.rest.drop n⟩
  else .error (.unexpectedEnd c.position) c

def take (n : Nat) : Reader Bytes := do
  return (← fixed n).bytes

def byte : Reader UInt8 := fun c =>
  match c.rest with
  | [] => .error (.unexpectedEnd c.position) c
  | b :: rest => .ok b ⟨c.position + 1, rest⟩

def uint16 : Reader UInt16 := do
  let bytes ← take 2
  return UInt16.ofNat (BigEndian.decode bytes)

def uint32 : Reader UInt32 := do
  let bytes ← take 4
  return UInt32.ofNat (BigEndian.decode bytes)

def int32 : Reader Int32 := do
  let bytes ← take 4
  return Int32.ofInt (TwosComplement.decode bytes)

def int64 : Reader Int64 := do
  let bytes ← take 8
  return Int64.ofInt (TwosComplement.decode bytes)

/-- A two-byte length of at most `bound`, then that many bytes. -/
def block (bound : Nat) : Reader Bytes := do
  let offset ← position
  let length ← uint16
  if length.toNat ≤ bound then
    take length.toNat
  else
    throw (.payloadTooLong offset length.toNat bound)

/-- Text of the given bytes; a failure names the offset of its length. -/
def decodeText (offset : Nat) (bytes : Bytes) : Reader String :=
  match Text.decode? bytes with
  | some s => pure s
  | none => throw (.invalidText offset)

def text (bound : Nat) : Reader String := do
  let offset ← position
  let bytes ← block bound
  decodeText offset bytes

/-- Read `n` items with one reader, in front of those already read, latest first. -/
def manyAfter {α : Type} (item : Reader α) : (n : Nat) → (earlier : List α) → Reader (List α)
  | 0, earlier => pure earlier.reverse
  | n + 1, earlier => do
    let a ← item
    manyAfter item n (a :: earlier)

/-- Read `n` items with one reader. -/
def many {α : Type} (n : Nat) (item : Reader α) : Reader (List α) := manyAfter item n []

/-- A one-byte count, then that many items. -/
def list8 {α : Type} (item : Reader α) : Reader (List α) := do
  let count ← byte
  many count.toNat item

/-- A two-byte count, then that many items. -/
def list16 {α : Type} (item : Reader α) : Reader (List α) := do
  let count ← uint16
  many count.toNat item

/-- Succeeds only at the end of the bytes. -/
def finish : Reader Unit := fun c =>
  match c.rest with
  | [] => .ok () c
  | _ :: _ => .error (.trailingBytes c.position c.remaining) c

/-- Read the whole of a byte string. -/
def runWhole {α : Type} (reader : Reader α) (bytes : Bytes) : Except DecodeError α :=
  let whole : Reader α := do
    let a ← reader
    finish
    return a
  match whole (.start bytes) with
  | .ok a _ => .ok a
  | .error e _ => .error e

end Reader

end ContractMachine
