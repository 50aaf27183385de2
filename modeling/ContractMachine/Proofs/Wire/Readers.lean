import ContractMachine.Proofs.Wire.Integers
import ContractMachine.Wire.Value

/-! Readers that read back what was written. A reader parses bytes if it takes exactly them off
the front, whatever comes after, so readers that parse their parts parse the whole. -/

namespace ContractMachine

namespace Reader

variable {α β : Type}

/-- From these bytes and any after them, the reader reads the value and leaves those after. -/
def Parses (reader : Reader α) (bytes : Bytes) (a : α) : Prop :=
  ∀ position rest, reader ⟨position, bytes ++ rest⟩ = .ok a ⟨position + bytes.length, rest⟩

/-! ### Sequences -/

theorem bind_apply {reader : Reader α} {next : α → Reader β} {cursor cursor' : Cursor} {a : α}
    (h : reader cursor = .ok a cursor') : (reader >>= next) cursor = next a cursor' := by
  change EStateM.bind reader next cursor = next a cursor'
  rw [EStateM.bind, h]

theorem bind_apply_error {reader : Reader α} {next : α → Reader β} {cursor last : Cursor}
    {e : DecodeError} (h : reader cursor = .error e last) :
    (reader >>= next) cursor = .error e last := by
  change EStateM.bind reader next cursor = .error e last
  rw [EStateM.bind, h]

theorem parses_pure (a : α) : Parses (pure a) [] a := by
  intro position rest
  rfl

theorem Parses.bind {reader : Reader α} {next : α → Reader β} {first second : Bytes} {a : α} {b : β}
    (ha : reader.Parses first a) (hb : (next a).Parses second b) :
    (reader >>= next).Parses (first ++ second) b := by
  intro position rest
  rw [List.append_assoc, bind_apply (ha position (second ++ rest)), hb, List.length_append,
    Nat.add_assoc]

/-- What comes last may read nothing. -/
theorem Parses.bind_nil {reader : Reader α} {next : α → Reader β} {bytes : Bytes} {a : α} {b : β}
    (ha : reader.Parses bytes a) (hb : (next a).Parses [] b) :
    (reader >>= next).Parses bytes b := by
  have h := ha.bind hb
  rwa [List.append_nil] at h

theorem Parses.bind_pure {reader : Reader α} {bytes : Bytes} {a : α} (f : α → β)
    (ha : reader.Parses bytes a) : Parses (reader >>= fun a => pure (f a)) bytes (f a) :=
  ha.bind_nil (parses_pure (f a))

/-- The position serves for errors only. -/
theorem parses_position_bind {next : Nat → Reader β} {bytes : Bytes} {b : β}
    (h : ∀ offset, (next offset).Parses bytes b) : Parses (position >>= next) bytes b := by
  intro start rest
  exact h start start rest

theorem Parses.runWhole_eq_ok {reader : Reader α} {bytes : Bytes} {a : α}
    (h : reader.Parses bytes a) : reader.runWhole bytes = .ok a := by
  have hread := h 0 []
  rw [List.append_nil] at hread
  simp only [runWhole, Cursor.start, bind_apply hread]
  rfl

/-! ### Bytes and integers -/

theorem parses_byte (b : UInt8) : byte.Parses [b] b := by
  intro position rest
  rfl

theorem parses_fixed {n : Nat} (a : FixedBytes n) : (fixed n).Parses a.bytes a := by
  intro position rest
  obtain ⟨bytes, rfl⟩ := a
  simp [fixed]

theorem parses_take (bytes : Bytes) : (take bytes.length).Parses bytes bytes :=
  (parses_fixed ⟨bytes, rfl⟩).bind_pure FixedBytes.bytes

theorem parses_take_of_length {n : Nat} {bytes : Bytes} (h : bytes.length = n) :
    (take n).Parses bytes bytes := by
  rw [← h]
  exact parses_take bytes

theorem parses_unsigned (g : Nat → α) (width n : Nat) (h : n < Nat.pow 256 width) :
    Parses (take width >>= fun bytes => pure (g (BigEndian.decode bytes)))
      (BigEndian.encode width n) (g n) := by
  have htake := parses_take_of_length (BigEndian.length_encode width n)
  have hread := htake.bind_pure fun bytes => g (BigEndian.decode bytes)
  rwa [BigEndian.decode_encode_of_lt h] at hread

theorem parses_signed (g : Int → α) (width : Nat) (n : Int) (hwidth : 0 < width)
    (hlow : -(TwosComplement.half width : Int) ≤ n) (hhigh : n < TwosComplement.half width) :
    Parses (take width >>= fun bytes => pure (g (TwosComplement.decode bytes)))
      (TwosComplement.encode width n) (g n) := by
  have htake := parses_take_of_length (TwosComplement.length_encode width n)
  have hread := htake.bind_pure fun bytes => g (TwosComplement.decode bytes)
  rwa [TwosComplement.decode_encode hwidth hlow hhigh] at hread

theorem parses_uint16 (n : UInt16) : uint16.Parses (Writer.uint16 n) n := by
  have h : uint16.Parses (Writer.uint16 n) (.ofNat n.toNat) :=
    parses_unsigned UInt16.ofNat 2 n.toNat n.toNat_lt
  rwa [UInt16.ofNat_toNat] at h

theorem parses_uint32 (n : UInt32) : uint32.Parses (Writer.uint32 n) n := by
  have h : uint32.Parses (Writer.uint32 n) (.ofNat n.toNat) :=
    parses_unsigned UInt32.ofNat 4 n.toNat n.toNat_lt
  rwa [UInt32.ofNat_toNat] at h

theorem parses_int32 (n : Int32) : int32.Parses (Writer.int32 n) n := by
  have h : int32.Parses (Writer.int32 n) (.ofInt n.toInt) :=
    parses_signed Int32.ofInt 4 n.toInt (by omega) n.le_toInt n.toInt_lt
  rwa [Int32.ofInt_toInt] at h

theorem parses_int64 (n : Int64) : int64.Parses (Writer.int64 n) n := by
  have h : int64.Parses (Writer.int64 n) (.ofInt n.toInt) :=
    parses_signed Int64.ofInt 8 n.toInt (by omega) n.le_toInt n.toInt_lt
  rwa [Int64.ofInt_toInt] at h

theorem parses_count8 {n : Nat} (h : n ≤ 255) :
    ∃ count, byte.Parses (BigEndian.encode 1 n) count ∧ count.toNat = n := by
  refine ⟨.ofNat n, ?_, UInt8.toNat_ofNat_of_lt (Nat.lt_succ_of_le h)⟩
  have hbyte : BigEndian.encode 1 n = [.ofNat n] := by simp [BigEndian.encode]
  rw [hbyte]
  exact parses_byte _

theorem parses_count16 {n : Nat} (h : n ≤ 65535) :
    ∃ count, uint16.Parses (BigEndian.encode 2 n) count ∧ count.toNat = n :=
  ⟨.ofNat n, parses_unsigned UInt16.ofNat 2 n (Nat.lt_succ_of_le h),
    UInt16.toNat_ofNat_of_lt (Nat.lt_succ_of_le h)⟩

/-! ### Counted lists -/

variable {item : Reader α} {write : α → Bytes} {items : List α}

theorem parses_manyAfter (earlier : List α) (h : ∀ a ∈ items, item.Parses (write a) a) :
    (manyAfter item items.length earlier).Parses (items.flatMap write)
      (earlier.reverse ++ items) := by
  induction items generalizing earlier with
  | nil =>
      rw [List.append_nil]
      exact parses_pure earlier.reverse
  | cons a items ih =>
      have hrest := ih (a :: earlier) fun b hb => h b (List.mem_cons_of_mem a hb)
      rw [List.reverse_cons, List.append_assoc] at hrest
      exact (h a List.mem_cons_self).bind hrest

theorem parses_many {n : Nat} (hn : n = items.length) (h : ∀ a ∈ items, item.Parses (write a) a) :
    (many n item).Parses (items.flatMap write) items := by
  subst hn
  exact parses_manyAfter [] h

/-- A list whose count fits in one byte. -/
theorem parses_list8 (hcount : items.length ≤ 255) (h : ∀ a ∈ items, item.Parses (write a) a) :
    (list8 item).Parses (Writer.list8 write items) items := by
  obtain ⟨count, hread, hn⟩ := parses_count8 hcount
  exact hread.bind (parses_many hn h)

/-- A list whose count fits in two bytes. -/
theorem parses_list16 (hcount : items.length ≤ 65535) (h : ∀ a ∈ items, item.Parses (write a) a) :
    (list16 item).Parses (Writer.list16 write items) items := by
  obtain ⟨count, hread, hn⟩ := parses_count16 hcount
  exact hread.bind (parses_many hn h)

/-! ### Byte strings and text -/

theorem parses_block {bound : Nat} {bytes : Bytes} (hlength : bytes.length ≤ bound)
    (hbound : bound ≤ 65535) : (block bound).Parses (Writer.block bytes) bytes := by
  have hkept : bytes.take 65535 = bytes := List.take_of_length_le (by omega)
  obtain ⟨count, hread, hn⟩ := parses_count16 (hlength.trans hbound)
  rw [Writer.block, hkept]
  refine parses_position_bind fun offset => hread.bind ?_
  rw [hn, if_pos hlength]
  exact parses_take bytes

theorem parses_decodeText (offset : Nat) (s : String) :
    (decodeText offset (Text.encode s)).Parses [] s := by
  rw [decodeText, Text.decode?_encode]
  exact parses_pure s

theorem parses_text {bound : Nat} {s : String} (hsize : Text.size s ≤ bound)
    (hbound : bound ≤ 65535) : (text bound).Parses (Writer.text s) s := by
  have hblock : (block bound).Parses (Writer.text s) (Text.encode s) := parses_block hsize hbound
  exact parses_position_bind fun offset => hblock.bind_nil (parses_decodeText offset s)

end Reader

end ContractMachine
