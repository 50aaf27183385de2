import ContractMachine.Proofs.Wire.RoundTrip

/-! Literals on the wire. A value and an instruction are read back exactly if the format carries
their payload. A payload beyond its bound is refused for its length, and so it is when it is too
long even to be counted and only the beginning of it is written. -/

namespace ContractMachine

namespace Reader

variable {α β : Type}

/-- From these bytes and any after them, the reader finds a payload of this length where the bound
is less. The length stands `depth` bytes behind the beginning. -/
def Refuses (reader : Reader α) (bytes : Bytes) (depth length bound : Nat) : Prop :=
  ∀ position rest, ∃ last, reader ⟨position, bytes ++ rest⟩ =
    .error (.payloadTooLong (position + depth) length bound) last

variable {depth length bound : Nat}

/-! ### Sequences -/

theorem Refuses.bind {reader : Reader α} {next : α → Reader β} {bytes : Bytes}
    (h : reader.Refuses bytes depth length bound) :
    (reader >>= next).Refuses bytes depth length bound := by
  intro position rest
  obtain ⟨last, hread⟩ := h position rest
  exact ⟨last, bind_apply_error hread⟩

/-- What stands behind the length is not looked at. -/
theorem Refuses.append {reader : Reader α} {bytes : Bytes}
    (h : reader.Refuses bytes depth length bound) (more : Bytes) :
    reader.Refuses (bytes ++ more) depth length bound := by
  intro position rest
  rw [List.append_assoc]
  exact h position (more ++ rest)

theorem Parses.bind_refuses {reader : Reader α} {next : α → Reader β} {first second : Bytes}
    {a : α} (ha : reader.Parses first a) (h : (next a).Refuses second depth length bound) :
    (reader >>= next).Refuses (first ++ second) (first.length + depth) length bound := by
  intro position rest
  obtain ⟨last, hread⟩ := h (position + first.length) rest
  rw [Nat.add_assoc] at hread
  rw [List.append_assoc, bind_apply (ha position (second ++ rest))]
  exact ⟨last, hread⟩

/-! ### Payloads -/

/-- The length that is written is that of the payload, or the greatest there is. -/
theorem refuses_block {bytes : Bytes} (hlength : bound < bytes.length) (hbound : bound < 65535) :
    (block bound).Refuses (Writer.block bytes) 0 (min bytes.length 65535) bound := by
  intro position rest
  have hkept : (bytes.take 65535).length = min bytes.length 65535 := by
    rw [List.length_take, Nat.min_comm]
  obtain ⟨count, hread, hn⟩ := parses_count16 (n := (bytes.take 65535).length) (by omega)
  have hlong : ¬count.toNat ≤ bound := by omega
  have hcounted := hread position (bytes.take 65535 ++ rest)
  have hblock : block bound ⟨position, Writer.block bytes ++ rest⟩ =
      (uint16 >>= fun n => if n.toNat ≤ bound then take n.toNat
        else throw (.payloadTooLong position n.toNat bound))
          ⟨position, Writer.block bytes ++ rest⟩ := rfl
  rw [hblock, Writer.block, List.append_assoc, bind_apply hcounted, if_neg hlong, hn, hkept]
  exact ⟨_, rfl⟩

theorem refuses_text {s : String} (hsize : bound < Text.size s) (hbound : bound < 65535) :
    (text bound).Refuses (Writer.text s) 0 (min (Text.size s) 65535) bound := by
  have hblock : (block bound).Refuses (Writer.text s) 0 (min (Text.size s) 65535) bound :=
    refuses_block hsize hbound
  intro position rest
  exact hblock.bind position rest

theorem refuses_payload {v : Value} (hv : v.payloadLength? = some (length, bound))
    (hlength : bound < length) :
    (payload v.type).Refuses v.payload 0 (min length 65535) bound := by
  cases v <;> cases hv
  case shortText s => exact (refuses_text hlength (by decide)).bind
  case bigInteger n =>
    rw [← TwosComplement.length_encodeMin] at hlength ⊢
    exact (refuses_block hlength (by decide)).bind

theorem refuses_value {v : Value} (hv : v.payloadLength? = some (length, bound))
    (hlength : bound < length) : value.Refuses v.encode 1 (min length 65535) bound :=
  (parses_dataType v.type).bind_refuses (refuses_payload hv hlength)

theorem refuses_constant {v : Value} (hv : v.payloadLength? = some (length, bound))
    (hlength : bound < length) (dest : Register) :
    instruction.Refuses (Instruction.constant v dest).encode 2 (min length 65535) bound := by
  have hliteral := (refuses_value hv hlength).append [dest]
  have hoperands : (operands .constant).Refuses (v.encode ++ [dest]) 1 (min length 65535) bound :=
    hliteral.bind
  exact (parses_opcode .constant).bind_refuses hoperands

end Reader

namespace Value

/-- Reading has failed because the payload of the value, whose length stands at the offset, is
longer than its bound. -/
def RefusedAt {α : Type} (v : Value) (offset : Nat)
    (result : EStateM.Result DecodeError Cursor α) : Prop :=
  ∃ length bound last, v.payloadLength? = some (length, bound) ∧ bound < length ∧
    result = .error (.payloadTooLong offset (min length 65535) bound) last

theorem exists_excess_of_encodable {v : Value} (h : v.encodable = false) :
    ∃ length bound, v.payloadLength? = some (length, bound) ∧ bound < length := by
  rw [encodable] at h
  split at h
  · rename_i length bound hv
    exact ⟨length, bound, hv, by simpa using h⟩
  · cases h

theorem encodable_eq_false_iff {v : Value} :
    v.encodable = false ↔
      (∃ s, v = .shortText s ∧ 140 < (Text.encode s).length) ∨
        ∃ n, v = .bigInteger n ∧ 256 < (TwosComplement.encodeMin n).length := by
  cases v <;> simp [encodable, payloadLength?, maxShortText, maxBigInteger, Text.length_encode]

end Value

/-- Instructions and values are read back from what is written for them, whatever comes after, if
their literal fits. A text of more than 140 bytes or a big integer of more than 256 does not fit,
and it is refused for its length, also when the length itself does not fit into its two bytes. -/
theorem Instruction.decoding_follows_literals (i : Instruction) (v : Value) (position : Nat)
    (rest : Bytes) :
    ((∀ w dest, i = .constant w dest → w.encodable = true) →
      Reader.instruction ⟨position, i.encode ++ rest⟩ =
        .ok i ⟨position + i.encode.length, rest⟩) ∧
    (∀ w dest, i = .constant w dest → w.encodable = false →
      w.RefusedAt (position + 2) (Reader.instruction ⟨position, i.encode ++ rest⟩)) ∧
    (v.encodable = true →
      Reader.value ⟨position, v.encode ++ rest⟩ = .ok v ⟨position + v.encode.length, rest⟩) ∧
    (v.encodable = false →
      v.RefusedAt (position + 1) (Reader.value ⟨position, v.encode ++ rest⟩)) ∧
    (v.encodable = false ↔
      (∃ s, v = .shortText s ∧ 140 < (Text.encode s).length) ∨
        ∃ n, v = .bigInteger n ∧ 256 < (TwosComplement.encodeMin n).length) := by
  refine ⟨?_, ?_, ?_, ?_, Value.encodable_eq_false_iff⟩
  · intro hliteral
    have hcarried : i.Carried := by
      cases i with
      | constant w dest => exact hliteral w dest rfl
      | _ => trivial
    exact Reader.parses_instruction hcarried position rest
  · rintro w dest rfl hw
    obtain ⟨length, bound, hlength, hlong⟩ := Value.exists_excess_of_encodable hw
    obtain ⟨last, hread⟩ := Reader.refuses_constant hlength hlong dest position rest
    exact ⟨length, bound, last, hlength, hlong, hread⟩
  · intro hv
    exact Reader.parses_value hv position rest
  · intro hv
    obtain ⟨length, bound, hlength, hlong⟩ := Value.exists_excess_of_encodable hv
    obtain ⟨last, hread⟩ := Reader.refuses_value hlength hlong position rest
    exact ⟨length, bound, last, hlength, hlong, hread⟩

theorem TwosComplement.minWidth_two_pow (k : Nat) :
    minWidth (Int.ofNat (Nat.pow 2 k)) = (k + 1) / 8 + 1 := by
  have hpos : Nat.pow 2 k ≠ 0 := (Nat.two_pow_pos k).ne.symm
  have hlog : (Nat.pow 2 k).log2 = k := Nat.log2_two_pow
  rw [minWidth, magnitudeBits, if_neg hpos, hlog]

/-- A small negative number is loaded as it was written; a number of 70001 bytes is written with the
length of the 65535 that are left of it, and refused. -/
theorem Instruction.small_literal_read_and_huge_refused :
    let small : Instruction := .constant (.bigInteger (-129)) 4
    let huge : Value := .bigInteger (Int.ofNat (Nat.pow 2 560000))
    Reader.instruction ⟨0, small.encode ++ [7]⟩ = .ok small ⟨0 + small.encode.length, [7]⟩ ∧
      huge.payloadLength? = some (70001, 256) ∧
      ∃ last, Reader.value ⟨0, huge.encode ++ [7]⟩ =
        .error (.payloadTooLong 1 65535 256) last := by
  generalize hpower : 560000 = k
  intro small huge
  obtain ⟨hread, -, -, hrefused, -⟩ := decoding_follows_literals small huge 0 [7]
  have hsmall : ∀ w dest, small = .constant w dest → w.encodable = true := by
    intro w dest h
    obtain ⟨rfl, -⟩ := constant.inj h
    decide
  have hhuge : huge.payloadLength? = some (70001, 256) := by
    rw [Value.payloadLength?, TwosComplement.minWidth_two_pow, ← hpower]
    rfl
  have hlong : huge.encodable = false := by
    rw [Value.encodable, hhuge]
    rfl
  obtain ⟨length, bound, last, hlength, -, hresult⟩ := hrefused hlong
  obtain ⟨rfl, rfl⟩ : 70001 = length ∧ 256 = bound := by
    simpa using hhuge.symm.trans hlength
  exact ⟨hread hsmall, hhuge, last, hresult⟩

end ContractMachine
