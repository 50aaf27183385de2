import ContractMachine.Bytes.Integer

/-! Text as UTF-8 bytes. -/

namespace ContractMachine.Text

def encode (s : String) : Bytes := s.toUTF8.data.toList

/-- The text whose UTF-8 form is `bytes`, if they are valid. -/
def decode? (bytes : Bytes) : Option String := String.fromUTF8? ⟨bytes.toArray⟩

/-- Length of the UTF-8 form. -/
def size (s : String) : Nat := s.utf8ByteSize

@[simp] theorem decode?_encode (s : String) : decode? (encode s) = some s := by
  simp [decode?, encode, String.fromUTF8?, String.toUTF8, String.fromUTF8, s.isValidUTF8]

theorem eq_encode_of_decode? {bytes : Bytes} {s : String} (h : decode? bytes = some s) :
    bytes = encode s := by
  unfold decode? String.fromUTF8? at h
  split at h
  · cases h
    simp [encode, String.toUTF8, String.fromUTF8]
  · cases h

theorem length_encode (s : String) : (encode s).length = size s := rfl

end ContractMachine.Text
