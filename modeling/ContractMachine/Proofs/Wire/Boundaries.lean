import ContractMachine.Proofs.Wire.Inversion
import ContractMachine.Proofs.Wire.Reload

/-! The bytes of a contract show where it ends. Every reader of the format is self-delimiting: it
reads the same whatever comes after, and on a part of what it needs it runs out of bytes and fails
in no other way. -/

namespace ContractMachine

namespace Reader

variable {α β : Type}

/-- The reader finds that these bytes end too early, at an offset within them. -/
def RunsOut (reader : Reader α) (bytes : Bytes) : Prop :=
  ∀ position, ∃ offset last, offset ≤ position + bytes.length ∧
    reader ⟨position, bytes⟩ = .error (.unexpectedEnd offset) last

/-- The reader needs all of these bytes and none after them. -/
structure Delimits (reader : Reader α) (bytes : Bytes) (a : α) : Prop where
  parses : reader.Parses bytes a
  runsOut : ∀ front tail, bytes = front ++ tail → tail ≠ [] → reader.RunsOut front

/-- Whatever the reader reads, it needs exactly the bytes that it takes. -/
def SelfDelimiting (reader : Reader α) : Prop := reader.Takes reader.Delimits

/-! ### Sequences -/

theorem RunsOut.bind {reader : Reader α} {next : α → Reader β} {bytes : Bytes}
    (h : reader.RunsOut bytes) : (reader >>= next).RunsOut bytes := by
  intro position
  obtain ⟨offset, last, hle, hread⟩ := h position
  exact ⟨offset, last, hle, bind_apply_error hread⟩

theorem Parses.bind_runsOut {reader : Reader α} {next : α → Reader β} {first second : Bytes}
    {a : α} (ha : reader.Parses first a) (hnext : (next a).RunsOut second) :
    (reader >>= next).RunsOut (first ++ second) := by
  intro position
  obtain ⟨offset, last, hle, hread⟩ := hnext (position + first.length)
  refine ⟨offset, last, ?_, (bind_apply (ha position second)).trans hread⟩
  rw [List.length_append]
  omega

theorem delimits_pure (a : α) : Delimits (pure a) [] a where
  parses := parses_pure a
  runsOut front tail hsplit htail := by
    obtain ⟨-, rfl⟩ := List.append_eq_nil_iff.mp hsplit.symm
    exact absurd rfl htail

theorem Delimits.bind {reader : Reader α} {next : α → Reader β} {first second : Bytes} {a : α}
    {b : β} (ha : reader.Delimits first a) (hb : (next a).Delimits second b) :
    (reader >>= next).Delimits (first ++ second) b where
  parses := ha.parses.bind hb.parses
  runsOut front tail hsplit htail := by
    -- the cut is after the first part or within it
    rcases List.append_eq_append_iff.mp hsplit with ⟨middle, rfl, hsecond⟩ | ⟨middle, rfl, rfl⟩
    · exact ha.parses.bind_runsOut (hb.runsOut middle tail hsecond htail)
    · by_cases hmiddle : middle = []
      · subst hmiddle
        have hparses := ha.parses
        rw [List.append_nil] at hparses
        have hout := hparses.bind_runsOut (hb.runsOut [] second rfl (by simpa using htail))
        rwa [List.append_nil] at hout
      · exact (ha.runsOut front middle rfl hmiddle).bind

/-- The position serves for errors only. -/
theorem delimits_position_bind {next : Nat → Reader β} {bytes : Bytes} {b : β}
    (h : ∀ offset, (next offset).Delimits bytes b) : Delimits (position >>= next) bytes b where
  parses := parses_position_bind fun offset => (h offset).parses
  runsOut front tail hsplit htail start := (h start).runsOut front tail hsplit htail start

theorem selfDelimiting_pure (a : α) : SelfDelimiting (pure a) :=
  takes_pure (delimits_pure a)

theorem selfDelimiting_throw (e : DecodeError) : SelfDelimiting (throw e : Reader α) :=
  takes_throw e

theorem SelfDelimiting.bind {reader : Reader α} {next : α → Reader β}
    (h : reader.SelfDelimiting) (hnext : ∀ a, (next a).SelfDelimiting) :
    (reader >>= next).SelfDelimiting :=
  Takes.bind h fun _ a ha => (hnext a).imp fun _ _ hb => ha.bind hb

theorem SelfDelimiting.bind_pure {reader : Reader α} (h : reader.SelfDelimiting) (f : α → β) :
    SelfDelimiting (reader >>= fun a => pure (f a)) :=
  h.bind fun a => selfDelimiting_pure (f a)

theorem selfDelimiting_ite {c : Prop} [Decidable c] {reader reader' : Reader α}
    (h : reader.SelfDelimiting) (h' : reader'.SelfDelimiting) :
    SelfDelimiting (if c then reader else reader') := by
  split
  · exact h
  · exact h'

/-! ### Bytes, integers and text -/

theorem selfDelimiting_byte : byte.SelfDelimiting := by
  refine takes_byte fun b => ⟨parses_byte b, fun front tail hsplit htail position => ?_⟩
  have hfront : front = [] := by
    cases front with
    | nil => rfl
    | cons head front =>
        obtain ⟨-, hrest⟩ := List.cons.inj hsplit
        obtain ⟨-, rfl⟩ := List.append_eq_nil_iff.mp hrest.symm
        exact absurd rfl htail
  subst hfront
  exact ⟨position, ⟨position, []⟩, Nat.le_refl _, rfl⟩

theorem selfDelimiting_fixed (n : Nat) : (fixed n).SelfDelimiting := by
  refine takes_fixed fun a => ⟨parses_fixed a, fun front tail hsplit htail position => ?_⟩
  have hshort : front.length < n := by
    have hlength := congrArg List.length hsplit
    have hpos := List.length_pos_iff.mpr htail
    rw [a.length_bytes, List.length_append] at hlength
    omega
  refine ⟨position, ⟨position, front⟩, Nat.le_add_right _ _, ?_⟩
  have hmissing : ¬(front.take n).length = n := by
    rw [List.length_take]
    omega
  rw [fixed, dif_neg hmissing]

theorem selfDelimiting_take (n : Nat) : (take n).SelfDelimiting :=
  (selfDelimiting_fixed n).bind_pure FixedBytes.bytes

theorem selfDelimiting_uint16 : uint16.SelfDelimiting := (selfDelimiting_take 2).bind_pure _

theorem selfDelimiting_uint32 : uint32.SelfDelimiting := (selfDelimiting_take 4).bind_pure _

theorem selfDelimiting_int32 : int32.SelfDelimiting := (selfDelimiting_take 4).bind_pure _

theorem selfDelimiting_int64 : int64.SelfDelimiting := (selfDelimiting_take 8).bind_pure _

/-- The length is read before the bytes that it counts, so they are found missing whatever they
would have been. -/
theorem selfDelimiting_block (bound : Nat) : (block bound).SelfDelimiting := by
  refine takes_position_bind fun _ => Takes.bind selfDelimiting_uint16 fun first length hlength =>
    takes_ite (fun hle => (selfDelimiting_take length.toNat).imp fun second bytes hbytes => ?_)
      fun _ => takes_throw _
  refine delimits_position_bind fun offset => hlength.bind ?_
  rwa [if_pos hle]

theorem delimits_decodeText (offset : Nat) {bytes : Bytes} {s : String}
    (h : Text.decode? bytes = some s) : (decodeText offset bytes).Delimits [] s := by
  rw [decodeText, h]
  exact delimits_pure s

theorem selfDelimiting_text (bound : Nat) : (text bound).SelfDelimiting := by
  refine takes_position_bind fun _ => Takes.bind (selfDelimiting_block bound)
    fun first bytes hbytes => (takes_decodeText _ bytes).imp ?_
  rintro second s ⟨rfl, hs⟩
  exact delimits_position_bind fun offset => hbytes.bind (delimits_decodeText offset hs)

theorem selfDelimiting_shortName : shortName.SelfDelimiting := by
  refine takes_position_bind fun _ => Takes.bind selfDelimiting_byte fun first length hlength =>
    Takes.bind (selfDelimiting_take length.toNat) fun second bytes hbytes =>
      (takes_decodeText _ bytes).imp ?_
  rintro third s ⟨rfl, hs⟩
  exact delimits_position_bind fun offset =>
    hlength.bind (hbytes.bind (delimits_decodeText offset hs))

/-! ### Counted lists -/

section Lists

variable {item : Reader α}

theorem selfDelimiting_manyAfter (h : item.SelfDelimiting) (n : Nat) (earlier : List α) :
    (manyAfter item n earlier).SelfDelimiting := by
  induction n generalizing earlier with
  | zero => exact selfDelimiting_pure earlier.reverse
  | succ n ih => exact h.bind fun a => ih (a :: earlier)

theorem selfDelimiting_list8 (h : item.SelfDelimiting) : (list8 item).SelfDelimiting :=
  selfDelimiting_byte.bind fun count => selfDelimiting_manyAfter h count.toNat []

theorem selfDelimiting_list16 (h : item.SelfDelimiting) : (list16 item).SelfDelimiting :=
  selfDelimiting_uint16.bind fun count => selfDelimiting_manyAfter h count.toNat []

end Lists

/-! ### Values and instructions -/

theorem selfDelimiting_dataType : dataType.SelfDelimiting := by
  refine selfDelimiting_byte.bind fun b => ?_
  split
  · exact selfDelimiting_pure _
  · exact selfDelimiting_throw _

theorem selfDelimiting_boolean : boolean.SelfDelimiting :=
  selfDelimiting_byte.bind fun _ => selfDelimiting_ite (selfDelimiting_pure false)
    (selfDelimiting_ite (selfDelimiting_pure true) (selfDelimiting_throw _))

theorem selfDelimiting_tokenId : tokenId.SelfDelimiting :=
  (selfDelimiting_fixed addressLength).bind fun _ => selfDelimiting_uint32.bind_pure _

theorem selfDelimiting_payload (type : DataType) : (payload type).SelfDelimiting := by
  cases type with
  | address => exact (selfDelimiting_fixed addressLength).bind_pure _
  | account => exact (selfDelimiting_fixed addressLength).bind_pure _
  | amount => exact selfDelimiting_int64.bind_pure _
  | int32 => exact selfDelimiting_int32.bind_pure _
  | boolean => exact selfDelimiting_boolean.bind_pure _
  | shortText => exact (selfDelimiting_text maxShortText).bind_pure _
  | timestamp => exact selfDelimiting_int64.bind_pure _
  | tokenId => exact selfDelimiting_tokenId.bind_pure _
  | bigInteger => exact (selfDelimiting_block maxBigInteger).bind_pure _
  | dataType => exact selfDelimiting_dataType.bind_pure _

theorem selfDelimiting_value : value.SelfDelimiting :=
  selfDelimiting_dataType.bind selfDelimiting_payload

theorem selfDelimiting_opcode : opcode.SelfDelimiting := by
  refine selfDelimiting_byte.bind fun b => ?_
  split
  · exact selfDelimiting_pure _
  · exact selfDelimiting_throw _

theorem selfDelimiting_operand1 (make : UInt8 → Instruction) : (operand1 make).SelfDelimiting :=
  selfDelimiting_byte.bind_pure make

theorem selfDelimiting_operand2 (make : UInt8 → UInt8 → Instruction) :
    (operand2 make).SelfDelimiting :=
  selfDelimiting_byte.bind fun a => selfDelimiting_operand1 (make a)

theorem selfDelimiting_operand3 (make : UInt8 → UInt8 → UInt8 → Instruction) :
    (operand3 make).SelfDelimiting :=
  selfDelimiting_byte.bind fun a => selfDelimiting_operand2 (make a)

theorem selfDelimiting_operand4 (make : UInt8 → UInt8 → UInt8 → UInt8 → Instruction) :
    (operand4 make).SelfDelimiting :=
  selfDelimiting_byte.bind fun a => selfDelimiting_operand3 (make a)

theorem selfDelimiting_operands (op : Opcode) : (operands op).SelfDelimiting := by
  cases op with
  | constant => exact selfDelimiting_value.bind fun v => selfDelimiting_operand1 _
  | loadSigner | loadCaller | loadTimestamp | loadLastTokenIndex | assertSigner | assertCaller
  | assertTrue | assertPermitted => exact selfDelimiting_operand1 _
  | assertEqual | assertNotExpired | sqrt | not | setVar | getVar | getVarOrZero | addVar
  | minusVar => exact selfDelimiting_operand2 _
  | transfer => exact selfDelimiting_operand4 _
  | _ => exact selfDelimiting_operand3 _

theorem selfDelimiting_instruction : instruction.SelfDelimiting :=
  selfDelimiting_opcode.bind selfDelimiting_operands

/-! ### Contracts -/

theorem selfDelimiting_functionKind : functionKind.SelfDelimiting :=
  selfDelimiting_byte.bind fun _ => selfDelimiting_ite (selfDelimiting_pure _)
    (selfDelimiting_ite (selfDelimiting_pure _)
      (selfDelimiting_ite (selfDelimiting_byte.bind_pure _)
        (selfDelimiting_ite (selfDelimiting_byte.bind_pure _) (selfDelimiting_throw _))))

theorem selfDelimiting_function : function.SelfDelimiting :=
  selfDelimiting_uint16.bind fun _ => selfDelimiting_functionKind.bind fun _ =>
    (selfDelimiting_list8 selfDelimiting_dataType).bind fun _ =>
      (selfDelimiting_list8 selfDelimiting_dataType).bind fun _ =>
        (selfDelimiting_list16 selfDelimiting_instruction).bind_pure _

theorem selfDelimiting_varDecl : varDecl.SelfDelimiting :=
  selfDelimiting_byte.bind fun _ => selfDelimiting_dataType.bind_pure _

theorem selfDelimiting_mapDecl : mapDecl.SelfDelimiting :=
  selfDelimiting_byte.bind fun _ => selfDelimiting_dataType.bind fun _ =>
    selfDelimiting_dataType.bind_pure _

theorem selfDelimiting_signature : signature.SelfDelimiting :=
  (selfDelimiting_text maxName).bind fun _ =>
    (selfDelimiting_list8 (selfDelimiting_text maxName)).bind fun _ =>
      (selfDelimiting_list8 (selfDelimiting_text maxName)).bind_pure _

theorem selfDelimiting_textual : textual.SelfDelimiting :=
  (selfDelimiting_list16 selfDelimiting_signature).bind fun _ =>
    (selfDelimiting_list16 selfDelimiting_signature).bind fun _ =>
      (selfDelimiting_list16 (selfDelimiting_text maxName)).bind fun _ =>
        (selfDelimiting_list16 (selfDelimiting_text maxName)).bind_pure _

theorem selfDelimiting_textualOption : textualOption.SelfDelimiting :=
  selfDelimiting_byte.bind fun _ => selfDelimiting_ite (selfDelimiting_pure none)
    (selfDelimiting_ite (selfDelimiting_textual.bind_pure some) (selfDelimiting_throw _))

theorem selfDelimiting_contract : contract.SelfDelimiting :=
  selfDelimiting_shortName.bind fun _ => selfDelimiting_int32.bind fun _ =>
    (selfDelimiting_list16 selfDelimiting_function).bind fun _ =>
      (selfDelimiting_list16 selfDelimiting_function).bind fun _ =>
        (selfDelimiting_list16 selfDelimiting_varDecl).bind fun _ =>
          (selfDelimiting_list16 selfDelimiting_mapDecl).bind fun _ =>
            selfDelimiting_textualOption.bind_pure _

/-! ### Whole byte strings -/

theorem RunsOut.runWhole {reader : Reader α} {bytes : Bytes} (h : reader.RunsOut bytes) :
    ∃ offset, offset ≤ bytes.length ∧ reader.runWhole bytes = .error (.unexpectedEnd offset) := by
  obtain ⟨offset, last, hle, hread⟩ := h 0
  rw [Nat.zero_add] at hle
  refine ⟨offset, hle, ?_⟩
  simp only [Reader.runWhole, Cursor.start, bind_apply_error hread]

theorem Parses.runWhole_append {reader : Reader α} {bytes extra : Bytes} {a : α}
    (h : reader.Parses bytes a) (hextra : extra ≠ []) :
    reader.runWhole (bytes ++ extra) = .error (.trailingBytes bytes.length extra.length) := by
  obtain ⟨head, rest, rfl⟩ := List.exists_cons_of_ne_nil hextra
  have hread := h 0 (head :: rest)
  rw [Nat.zero_add] at hread
  simp only [Reader.runWhole, Cursor.start, bind_apply hread]
  rfl

end Reader

/-- The bytes of a contract are neither the beginning of those of another nor is their end left
open: any part that is cut off at the end is missed, at an offset within what is left, and anything
that is added is found to be too much, where it begins and as long as it is. -/
theorem Contract.decode_prefix_free {bytes : Bytes} {c : Contract}
    (h : Contract.decode bytes = .ok c) :
    (∀ front, front <+: bytes → front ≠ bytes →
      ∃ offset, offset ≤ front.length ∧ Contract.decode front = .error (.unexpectedEnd offset)) ∧
    ∀ extra, extra ≠ [] →
      Contract.decode (bytes ++ extra) = .error (.trailingBytes bytes.length extra.length) := by
  have hdelimits := Reader.selfDelimiting_contract.of_runWhole h
  refine ⟨?_, fun extra hextra => hdelimits.parses.runWhole_append hextra⟩
  rintro front ⟨tail, htail⟩ hne
  have hmissing : tail ≠ [] := by
    rintro rfl
    exact hne (by simpa using htail)
  exact (hdelimits.runsOut front tail htail.symm hmissing).runWhole

/-- The theorem at the bytes of the savings: one byte less is missed, and one more is too much. -/
theorem Savings.bytes_cut_or_extended :
    let bytes := contract.encode
    Contract.decode bytes = .ok contract ∧
    (∃ offset, offset ≤ bytes.length - 1 ∧
      Contract.decode bytes.dropLast = .error (.unexpectedEnd offset)) ∧
    Contract.decode (bytes ++ [0]) = .error (.trailingBytes bytes.length 1) := by
  have hdecode : Contract.decode contract.encode = .ok contract :=
    (Contract.carried_of_defects accepted).decode_encode
  have hne : contract.encode ≠ [] := by
    simp [Contract.encode, Writer.shortName]
  obtain ⟨hcut, hextended⟩ := Contract.decode_prefix_free hdecode
  refine ⟨hdecode, ?_, hextended [0] (by decide)⟩
  rw [← List.length_dropLast]
  refine hcut _ (List.dropLast_prefix _) fun hsame => ?_
  have hlength := congrArg List.length hsame
  have hpos := List.length_pos_iff.mpr hne
  rw [List.length_dropLast] at hlength
  omega

end ContractMachine
