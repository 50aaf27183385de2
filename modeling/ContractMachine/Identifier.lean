import ContractMachine.OrderedMap
import ContractMachine.Bytes.Integer

/-! Accounts, contracts and tokens are named by byte strings of one fixed length. -/

namespace ContractMachine

/-- Byte strings of length `n`. -/
structure FixedBytes (n : Nat) where
  bytes : Bytes
  length_bytes : bytes.length = n
  deriving DecidableEq

namespace FixedBytes

def ofBytes? (n : Nat) (bytes : Bytes) : Option (FixedBytes n) :=
  if h : bytes.length = n then some ⟨bytes, h⟩ else none

theorem ext {n : Nat} {a b : FixedBytes n} (h : a.bytes = b.bytes) : a = b := by
  cases a; cases b; cases h; rfl

def sortKey {n : Nat} (a : FixedBytes n) : List Int := a.bytes.map fun b => Int.ofNat b.toNat

@[simp] theorem length_sortKey {n : Nat} (a : FixedBytes n) : a.sortKey.length = n := by
  simp [sortKey, a.length_bytes]

theorem sortKey_injective {n : Nat} {a b : FixedBytes n} (h : a.sortKey = b.sortKey) : a = b :=
  ext ((List.map_inj_right fun _ _ h => UInt8.toNat_inj.mp (Int.ofNat.inj h)).mp h)

instance {n : Nat} : SortKey (FixedBytes n) where
  key := sortKey
  key_injective := sortKey_injective

end FixedBytes

def addressLength : Nat := 26

abbrev Address := FixedBytes addressLength

abbrev ContractId := FixedBytes addressLength

abbrev TokenIndex := UInt32

/-- The token number `index` of the contract that issues it. -/
structure TokenId where
  contract : ContractId
  index : TokenIndex
  deriving DecidableEq

namespace TokenId

def sortKey (t : TokenId) : List Int := t.contract.sortKey ++ [Int.ofNat t.index.toNat]

theorem sortKey_injective {s t : TokenId} (h : s.sortKey = t.sortKey) : s = t := by
  obtain ⟨hc, hi⟩ := List.append_inj h (by simp)
  cases s; cases t
  cases FixedBytes.sortKey_injective hc
  cases UInt32.toNat_inj.mp (Int.ofNat.inj (List.cons.inj hi).1)
  rfl

end TokenId

end ContractMachine
