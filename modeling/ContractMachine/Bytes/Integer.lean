/-! Integers as big-endian bytes: unsigned at a fixed width, signed in two's complement at a
fixed width, and signed at the least width that holds the number. -/

namespace ContractMachine

abbrev Bytes := List UInt8

namespace BigEndian

/-- The last `width` base-256 digits of `n`, most significant first. -/
def encode : (width : Nat) → (n : Nat) → Bytes
  | 0, _ => []
  | width + 1, n => UInt8.ofNat (n / Nat.pow 256 width) :: encode width n

def decode (bytes : Bytes) : Nat :=
  bytes.foldl (fun n b => n * 256 + b.toNat) 0

end BigEndian

namespace TwosComplement

/-- Two's complement of `n` on `width` bytes; numbers out of range lose their high digits. -/
def encode (width : Nat) (n : Int) : Bytes :=
  BigEndian.encode width (n % Int.ofNat (Nat.pow 256 width)).toNat

/-- A leading bit of one makes the number negative. No bytes at all stand for zero. -/
def decode (bytes : Bytes) : Int :=
  match bytes with
  | [] => 0
  | b :: _ =>
    if b.toNat < 128 then Int.ofNat (BigEndian.decode bytes)
    else Int.ofNat (BigEndian.decode bytes) - Int.ofNat (Nat.pow 256 bytes.length)

/-- Number of binary digits of the magnitude, the sign left out. Minus one has none. -/
def magnitudeBits : Int → Nat
  | .ofNat n => if n = 0 then 0 else n.log2 + 1
  | .negSucc n => if n = 0 then 0 else n.log2 + 1

/-- The least number of bytes that holds `n`; at least one. -/
def minWidth (n : Int) : Nat := magnitudeBits n / 8 + 1

/-- The shortest two's complement of `n`. -/
def encodeMin (n : Int) : Bytes := encode (minWidth n) n

end TwosComplement

/-- The 64-bit integer equal to `n`, if there is one. -/
def int64? (n : Int) : Option Int64 :=
  if -9223372036854775808 ≤ n ∧ n < 9223372036854775808 then some (Int64.ofInt n) else none

/-- The 32-bit integer equal to `n`, if there is one. -/
def int32? (n : Int) : Option Int32 :=
  if -2147483648 ≤ n ∧ n < 2147483648 then some (Int32.ofInt n) else none

theorem int64?_eq_some_iff {n : Int} {x : Int64} : int64? n = some x ↔ x.toInt = n := by
  unfold int64?
  constructor
  · intro h
    split at h
    · rename_i hn
      cases h
      exact Int64.toInt_ofInt_of_le hn.1 hn.2
    · cases h
  · rintro rfl
    rw [if_pos ⟨x.le_toInt, x.toInt_lt⟩, Int64.ofInt_toInt]

theorem int32?_eq_some_iff {n : Int} {x : Int32} : int32? n = some x ↔ x.toInt = n := by
  unfold int32?
  constructor
  · intro h
    split at h
    · rename_i hn
      cases h
      exact Int32.toInt_ofInt_of_le hn.1 hn.2
    · cases h
  · rintro rfl
    rw [if_pos ⟨x.le_toInt, x.toInt_lt⟩, Int32.ofInt_toInt]

end ContractMachine
