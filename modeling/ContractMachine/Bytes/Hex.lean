import ContractMachine.Bytes.Integer

/-! Bytes as pairs of lower-case hexadecimal digits. -/

namespace ContractMachine.Hex

def digit (n : Nat) : Char := Nat.digitChar (n % 16)

def ofByte (b : UInt8) : List Char := [digit (b.toNat / 16), digit b.toNat]

def encode (bytes : Bytes) : String := String.ofList (bytes.flatMap ofByte)

end ContractMachine.Hex
