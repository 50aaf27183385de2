import ContractMachine.Proofs.Wire.Inversion
import ContractMachine.Proofs.Wire.RoundTrip

/-! What is decoded is carried by the format, so it is decoded again from what is written for it.
Of every tag, flag, length and count there is one spelling; only big integers have several, of
which the shortest is written. -/

namespace ContractMachine

/-- The instruction loads no big integer. -/
def Instruction.Plain (i : Instruction) : Prop :=
  ∀ n dest, i ≠ .constant (.bigInteger n) dest

namespace Reader

variable {α : Type}

/-! ### Bytes and integers -/

theorem takes_one : byte.Takes fun bytes b => bytes = [b] := takes_byte fun _ => rfl

theorem takes_exactly (n : Nat) :
    (take n).Takes fun bytes taken => bytes = taken ∧ taken.length = n :=
  takes_take fun _ hlength => ⟨rfl, hlength⟩

theorem takes_address : (fixed addressLength).Takes fun bytes a => bytes = a.bytes :=
  takes_fixed fun _ => rfl

theorem takes_unsigned {g : Nat → α} {write : α → Bytes} (width : Nat)
    (hwrite : ∀ n < Nat.pow 256 width, write (g n) = BigEndian.encode width n) :
    Takes (take width >>= fun bytes => pure (g (BigEndian.decode bytes)))
      fun bytes a => bytes = write a := by
  refine (takes_exactly width).bind_pure ?_
  rintro bytes _ ⟨rfl, rfl⟩
  rw [hwrite _ (BigEndian.decode_lt bytes), BigEndian.encode_decode]

theorem takes_signed {g : Int → α} {write : α → Bytes} {width : Nat} (hwidth : 0 < width)
    (hwrite : ∀ n : Int, -(TwosComplement.half width : Int) ≤ n → n < TwosComplement.half width →
      write (g n) = TwosComplement.encode width n) :
    Takes (take width >>= fun bytes => pure (g (TwosComplement.decode bytes)))
      fun bytes a => bytes = write a := by
  refine (takes_exactly width).bind_pure ?_
  rintro bytes _ ⟨rfl, rfl⟩
  obtain ⟨hlow, hhigh⟩ := TwosComplement.bounds_decode (List.length_pos_iff.mp hwidth)
  rw [hwrite _ hlow hhigh, TwosComplement.encode_decode]

theorem takes_uint16 : uint16.Takes fun bytes n => bytes = Writer.uint16 n :=
  takes_unsigned 2 fun n hn => by rw [Writer.uint16, UInt16.toNat_ofNat_of_lt' hn]

theorem takes_uint32 : uint32.Takes fun bytes n => bytes = Writer.uint32 n :=
  takes_unsigned 4 fun n hn => by rw [Writer.uint32, UInt32.toNat_ofNat_of_lt' hn]

theorem takes_int32 : int32.Takes fun bytes n => bytes = Writer.int32 n :=
  takes_signed (by omega) fun n hlow hhigh => by
    rw [Writer.int32, Int32.toInt_ofInt_of_le hlow hhigh]

theorem takes_int64 : int64.Takes fun bytes n => bytes = Writer.int64 n :=
  takes_signed (by omega) fun n hlow hhigh => by
    rw [Writer.int64, Int64.toInt_ofInt_of_le hlow hhigh]

/-! ### Byte strings and text -/

theorem takes_block (bound : Nat) :
    (block bound).Takes fun bytes payload =>
      payload.length ≤ bound ∧ bytes = Writer.block payload := by
  refine takes_position_bind fun _ => takes_uint16.bind fun first length hfirst =>
    takes_ite (fun hle => takes_take fun payload hlength => ?_) fun _ => takes_throw _
  have hmax := length.toNat_lt
  have hkept : payload.take 65535 = payload := List.take_of_length_le (by omega)
  refine ⟨hlength ▸ hle, ?_⟩
  rw [hfirst, Writer.block, hkept, hlength, Writer.uint16]

theorem takes_text (bound : Nat) :
    (text bound).Takes fun bytes s => Text.size s ≤ bound ∧ bytes = Writer.text s := by
  refine takes_position_bind fun _ => (takes_block bound).bind fun first payload hpayload =>
    (takes_decodeText _ payload).imp ?_
  rintro second s ⟨rfl, hs⟩
  obtain rfl := Text.eq_encode_of_decode? hs
  rwa [List.append_nil]

theorem takes_shortName :
    shortName.Takes fun bytes s => Text.size s ≤ 255 ∧ bytes = Writer.shortName s := by
  refine takes_position_bind fun _ => takes_one.bind fun first length hfirst =>
    (takes_exactly length.toNat).bind fun second bytes hsecond =>
      (takes_decodeText _ bytes).imp ?_
  rintro third s ⟨rfl, hs⟩
  obtain ⟨rfl, hcount⟩ := hsecond
  obtain rfl := Text.eq_encode_of_decode? hs
  have hmax := length.toNat_lt
  have hkept : (Text.encode s).take 255 = Text.encode s := List.take_of_length_le (by omega)
  refine ⟨(by omega : (Text.encode s).length ≤ 255), ?_⟩
  rw [hfirst, Writer.shortName, hkept, hcount, UInt8.ofNat_toNat, List.append_nil]
  rfl

/-! ### Counted lists -/

/-- The bytes of some items, one after the other. -/
inductive Spells (R : Bytes → α → Prop) : Bytes → List α → Prop where
  | nil : Spells R [] []
  | cons {first rest : Bytes} {a : α} {items : List α} (head : R first a)
      (tail : Spells R rest items) : Spells R (first ++ rest) (a :: items)

/-- A count on so many bytes, and then the items. -/
def Counted (width : Nat) (R : Bytes → α → Prop) (bytes : Bytes) (items : List α) : Prop :=
  items.length < Nat.pow 256 width ∧
    ∃ body, bytes = BigEndian.encode width items.length ++ body ∧ Spells R body items

section Lists

variable {R : Bytes → α → Prop} {bytes : Bytes} {items : List α}

theorem Spells.forall_mem (h : Spells R bytes items) {P : α → Prop}
    (hitem : ∀ first a, R first a → P a) : ∀ a ∈ items, P a := by
  induction h with
  | nil => simp
  | cons head tail ih => exact List.forall_mem_cons.mpr ⟨hitem _ _ head, ih⟩

theorem Spells.eq_flatMap (h : Spells R bytes items) {write : α → Bytes}
    (hitem : ∀ a ∈ items, ∀ first, R first a → first = write a) : bytes = items.flatMap write := by
  induction h with
  | nil => rfl
  | cons head tail ih =>
      obtain ⟨hhead, htail⟩ := List.forall_mem_cons.mp hitem
      rw [List.flatMap_cons, ← hhead _ head, ← ih htail]

theorem Counted.forall_mem {width : Nat} (h : Counted width R bytes items) {P : α → Prop}
    (hitem : ∀ first a, R first a → P a) : ∀ a ∈ items, P a := by
  obtain ⟨-, body, -, hbody⟩ := h
  exact hbody.forall_mem hitem

/-- If each item has one spelling, so has the list. -/
theorem Counted.eq_written {width : Nat} (h : Counted width R bytes items) {write : α → Bytes}
    (hitem : ∀ a ∈ items, ∀ first, R first a → first = write a) :
    bytes = BigEndian.encode width items.length ++ items.flatMap write := by
  obtain ⟨-, body, rfl, hbody⟩ := h
  rw [hbody.eq_flatMap hitem]

theorem takes_manyAfter {item : Reader α} (h : item.Takes R) (n : Nat) (earlier : List α) :
    (manyAfter item n earlier).Takes fun bytes items =>
      ∃ later, items = earlier.reverse ++ later ∧ later.length = n ∧ Spells R bytes later := by
  -- what was read before is in front and no longer in the bytes
  induction n generalizing earlier with
  | zero => exact takes_pure ⟨[], (List.append_nil _).symm, rfl, .nil⟩
  | succ n ih =>
      refine h.bind fun first a ha => (ih (a :: earlier)).imp ?_
      rintro rest items ⟨later, rfl, rfl, hlater⟩
      refine ⟨a :: later, ?_, rfl, .cons ha hlater⟩
      rw [List.reverse_cons, List.append_assoc]
      rfl

theorem takes_many {item : Reader α} (h : item.Takes R) (n : Nat) :
    (many n item).Takes fun bytes items => items.length = n ∧ Spells R bytes items := by
  refine (takes_manyAfter h n []).imp ?_
  rintro bytes items ⟨later, rfl, hlength, hlater⟩
  exact ⟨hlength, hlater⟩

theorem takes_list8 {item : Reader α} (h : item.Takes R) : (list8 item).Takes (Counted 1 R) := by
  have hcount : byte.Takes fun first count => first = BigEndian.encode 1 count.toNat :=
    takes_byte fun b => by simp [BigEndian.encode]
  refine hcount.bind fun first count hfirst => (takes_many h count.toNat).imp ?_
  rintro body items ⟨hlength, hbody⟩
  rw [hfirst, ← hlength]
  exact ⟨hlength ▸ count.toNat_lt, body, rfl, hbody⟩

theorem takes_list16 {item : Reader α} (h : item.Takes R) : (list16 item).Takes (Counted 2 R) := by
  refine takes_uint16.bind fun first count hfirst => (takes_many h count.toNat).imp ?_
  rintro body items ⟨hlength, hbody⟩
  rw [hfirst, Writer.uint16, ← hlength]
  exact ⟨hlength ▸ count.toNat_lt, body, rfl, hbody⟩

section Written

variable {item : Reader α} {P : α → Prop} {write : α → Bytes}

theorem takes_written8 (h : item.Takes fun bytes a => P a ∧ bytes = write a) :
    (list8 item).Takes fun bytes items =>
      (items.length ≤ 255 ∧ ∀ a ∈ items, P a) ∧ bytes = Writer.list8 write items :=
  (takes_list8 h).imp fun _ _ hitems =>
    ⟨⟨Nat.le_of_lt_succ hitems.1, hitems.forall_mem fun _ _ ha => ha.1⟩,
      hitems.eq_written fun _ _ _ ha => ha.2⟩

theorem takes_written16 (h : item.Takes fun bytes a => P a ∧ bytes = write a) :
    (list16 item).Takes fun bytes items =>
      (items.length ≤ 65535 ∧ ∀ a ∈ items, P a) ∧ bytes = Writer.list16 write items :=
  (takes_list16 h).imp fun _ _ hitems =>
    ⟨⟨Nat.le_of_lt_succ hitems.1, hitems.forall_mem fun _ _ ha => ha.1⟩,
      hitems.eq_written fun _ _ _ ha => ha.2⟩

end Written

end Lists

/-! ### Values -/

theorem takes_dataType : dataType.Takes fun bytes t => bytes = t.encode := by
  refine takes_one.bind fun first b hfirst => ?_
  split
  · rename_i t ht
    refine takes_pure ?_
    rw [hfirst, DataType.encode, DataType.code_of_ofCode? ht]
    rfl
  · exact takes_throw _

theorem takes_boolean : boolean.Takes fun bytes b => bytes = [if b then 1 else 0] := by
  refine takes_one.bind fun first b hfirst => takes_ite (fun hb => takes_pure ?_) fun _ =>
    takes_ite (fun hb => takes_pure ?_) fun _ => takes_throw _
  · rw [hfirst, hb]
    rfl
  · rw [hfirst, hb]
    rfl

theorem takes_tokenId :
    tokenId.Takes fun bytes t => bytes = t.contract.bytes ++ Writer.uint32 t.index := by
  refine takes_address.bind fun first contract hfirst =>
    takes_uint32.bind_pure fun second index hindex => ?_
  rw [hfirst, hindex]

/-- A payload that was read is within the bounds of the format, and it is the one that is written
unless it is of a big integer. -/
theorem takes_payload (type : DataType) :
    (payload type).Takes fun bytes v => v.type = type ∧ v.encodable = true ∧
      ((∀ n, v ≠ .bigInteger n) → bytes = v.payload) := by
  cases type with
  | address => exact takes_address.bind_pure fun bytes a h => ⟨rfl, rfl, fun _ => h⟩
  | account => exact takes_address.bind_pure fun bytes a h => ⟨rfl, rfl, fun _ => h⟩
  | amount => exact takes_int64.bind_pure fun bytes n h => ⟨rfl, rfl, fun _ => h⟩
  | int32 => exact takes_int32.bind_pure fun bytes n h => ⟨rfl, rfl, fun _ => h⟩
  | boolean => exact takes_boolean.bind_pure fun bytes b h => ⟨rfl, rfl, fun _ => h⟩
  | shortText =>
      refine (takes_text maxShortText).bind_pure fun bytes s h => ⟨rfl, ?_, fun _ => h.2⟩
      exact decide_eq_true h.1
  | timestamp => exact takes_int64.bind_pure fun bytes n h => ⟨rfl, rfl, fun _ => h⟩
  | tokenId => exact takes_tokenId.bind_pure fun bytes t h => ⟨rfl, rfl, fun _ => h⟩
  | bigInteger =>
      -- the payload may be longer than the shortest one, but then the shortest one fits as well
      refine (takes_block maxBigInteger).bind_pure fun bytes payload h =>
        ⟨rfl, ?_, fun hplain => absurd rfl (hplain _)⟩
      exact decide_eq_true (TwosComplement.minWidth_decode_le h.1 (by decide))
  | dataType => exact takes_dataType.bind_pure fun bytes t h => ⟨rfl, rfl, fun _ => h⟩

theorem takes_value :
    value.Takes fun bytes v => v.encodable = true ∧
      ((∀ n, v ≠ .bigInteger n) → bytes = v.encode) := by
  refine takes_dataType.bind fun first type hfirst => (takes_payload type).imp ?_
  rintro second v ⟨rfl, hfits, hplain⟩
  refine ⟨hfits, fun h => ?_⟩
  rw [hfirst, hplain h]
  rfl

/-! ### Instructions -/

theorem takes_opcode : opcode.Takes fun bytes op => bytes = [op.code] := by
  refine takes_one.bind fun first b hfirst => ?_
  split
  · rename_i op hop
    refine takes_pure ?_
    rw [hfirst, Opcode.code_of_ofCode? hop]
    rfl
  · exact takes_throw _

section Operands

variable {T : Bytes → Instruction → Prop}

theorem takes_operand1 {make : UInt8 → Instruction} (h : ∀ a, T [a] (make a)) :
    (operand1 make).Takes T :=
  takes_one.bind_pure fun _ a ha => ha ▸ h a

theorem takes_operand2 {make : UInt8 → UInt8 → Instruction} (h : ∀ a b, T [a, b] (make a b)) :
    (operand2 make).Takes T :=
  takes_one.bind fun _ a ha => takes_operand1 fun b => ha ▸ h a b

theorem takes_operand3 {make : UInt8 → UInt8 → UInt8 → Instruction}
    (h : ∀ a b c, T [a, b, c] (make a b c)) : (operand3 make).Takes T :=
  takes_one.bind fun _ a ha => takes_operand2 fun b c => ha ▸ h a b c

theorem takes_operand4 {make : UInt8 → UInt8 → UInt8 → UInt8 → Instruction}
    (h : ∀ a b c d, T [a, b, c, d] (make a b c d)) : (operand4 make).Takes T :=
  takes_one.bind fun _ a ha => takes_operand3 fun b c d => ha ▸ h a b c d

end Operands

theorem takes_operands (op : Opcode) :
    (operands op).Takes fun bytes i => i.opcode = op ∧ i.Carried ∧
      (i.Plain → bytes = i.operands) := by
  cases op with
  | constant =>
      refine takes_value.bind fun first v hv => takes_operand1 fun dest => ⟨rfl, hv.1, ?_⟩
      intro hplain
      rw [hv.2 fun n hn => hplain n dest (hn ▸ rfl)]
      rfl
  | loadSigner | loadCaller | loadTimestamp | loadLastTokenIndex | assertSigner | assertCaller
  | assertTrue | assertPermitted =>
      exact takes_operand1 fun _ => ⟨rfl, trivial, fun _ => rfl⟩
  | assertEqual | assertNotExpired | sqrt | not | setVar | getVar | getVarOrZero | addVar
  | minusVar => exact takes_operand2 fun _ _ => ⟨rfl, trivial, fun _ => rfl⟩
  | transfer => exact takes_operand4 fun _ _ _ _ => ⟨rfl, trivial, fun _ => rfl⟩
  | _ => exact takes_operand3 fun _ _ _ => ⟨rfl, trivial, fun _ => rfl⟩

theorem takes_instruction :
    instruction.Takes fun bytes i => i.Carried ∧ (i.Plain → bytes = i.encode) := by
  refine takes_opcode.bind fun first op hfirst => (takes_operands op).imp ?_
  rintro second i ⟨rfl, hcarried, hplain⟩
  refine ⟨hcarried, fun h => ?_⟩
  rw [hfirst, hplain h]
  rfl

/-! ### Functions and slots -/

theorem takes_functionKind : functionKind.Takes fun bytes kind => bytes = kind.encode := by
  refine takes_one.bind fun first b hfirst =>
    takes_ite (fun hb => takes_pure ?_) fun _ => takes_ite (fun hb => takes_pure ?_) fun _ =>
      takes_ite (fun hb => takes_one.bind_pure fun second var hsecond => ?_) fun _ =>
        takes_ite (fun hb => takes_one.bind_pure fun second var hsecond => ?_) fun _ =>
          takes_throw _
  · rw [hfirst, hb]
    rfl
  · rw [hfirst, hb]
    rfl
  · rw [hfirst, hb, hsecond]
    rfl
  · rw [hfirst, hb, hsecond]
    rfl

theorem takes_types : (list8 dataType).Takes fun bytes types =>
    types.length ≤ 255 ∧ bytes = Writer.list8 DataType.encode types :=
  (takes_list8 takes_dataType).imp fun _ _ h =>
    ⟨Nat.le_of_lt_succ h.1, h.eq_written fun _ _ _ htype => htype⟩

theorem takes_function :
    function.Takes fun bytes f => f.Carried ∧
      ((∀ i ∈ f.code, i.Plain) → bytes = f.encode) := by
  refine takes_uint16.bind fun b1 id hid => takes_functionKind.bind fun b2 kind hkind =>
    takes_types.bind fun b3 returns hreturns => takes_types.bind fun b4 params hparams =>
      (takes_list16 takes_instruction).bind_pure fun b5 code hcode => ?_
  refine ⟨⟨hreturns.1, hparams.1, Nat.le_of_lt_succ hcode.1,
    hcode.forall_mem fun _ _ hi => hi.1⟩, fun hplain => ?_⟩
  rw [hid, hkind, hreturns.2, hparams.2, hcode.eq_written fun i hi _ h => h.2 (hplain i hi)]
  simp only [Function.encode, List.append_assoc]
  rfl

theorem takes_varDecl : varDecl.Takes fun bytes d => bytes = d.encode := by
  refine takes_one.bind fun b1 index hindex => takes_dataType.bind_pure fun b2 type htype => ?_
  rw [hindex, htype]
  rfl

theorem takes_mapDecl : mapDecl.Takes fun bytes d => bytes = d.encode := by
  refine takes_one.bind fun b1 index hindex => takes_dataType.bind fun b2 key hkey =>
    takes_dataType.bind_pure fun b3 value hvalue => ?_
  rw [hindex, hkey, hvalue]
  rfl

/-! ### Names -/

theorem takes_signature : signature.Takes fun bytes s => s.Carried ∧ bytes = s.encode := by
  refine (takes_text maxName).bind fun b1 name hname =>
    (takes_written8 (takes_text maxName)).bind fun b2 params hparams =>
      (takes_written8 (takes_text maxName)).bind_pure fun b3 returns hreturns => ?_
  refine ⟨⟨hname.1, hparams.1, hreturns.1⟩, ?_⟩
  rw [hname.2, hparams.2, hreturns.2]
  simp only [Signature.encode, List.append_assoc]

theorem takes_textual : textual.Takes fun bytes t => t.Carried ∧ bytes = t.encode := by
  refine (takes_written16 takes_signature).bind fun b1 triggers htriggers =>
    (takes_written16 takes_signature).bind fun b2 functions hfunctions =>
      (takes_written16 (takes_text maxName)).bind fun b3 stateVars hvars =>
        (takes_written16 (takes_text maxName)).bind_pure fun b4 stateMaps hmaps => ?_
  refine ⟨⟨htriggers.1, hfunctions.1, hvars.1, hmaps.1⟩, ?_⟩
  rw [htriggers.2, hfunctions.2, hvars.2, hmaps.2]
  simp only [Textual.encode, List.append_assoc]

theorem takes_textualOption : textualOption.Takes fun bytes o =>
    (∀ t ∈ o, t.Carried) ∧ bytes = Textual.encodeOption o := by
  refine takes_one.bind fun first b hfirst => takes_ite (fun hb => takes_pure ?_) fun _ =>
    takes_ite (fun hb => takes_textual.bind_pure fun second t ht => ?_) fun _ => takes_throw _
  · refine ⟨by simp, ?_⟩
    rw [hfirst, hb]
    rfl
  · refine ⟨by simpa using ht.1, ?_⟩
    rw [hfirst, hb, ht.2]
    rfl

/-! ### Contracts -/

theorem Counted.functions_carried {bytes : Bytes} {functions : List Function}
    (h : Counted 2 (fun bytes f => f.Carried ∧ ((∀ i ∈ f.code, i.Plain) → bytes = f.encode))
      bytes functions) :
    functions.length ≤ 65535 ∧ ∀ f ∈ functions, f.Carried :=
  ⟨Nat.le_of_lt_succ h.1, h.forall_mem fun _ _ hf => hf.1⟩

theorem takes_contract :
    contract.Takes fun bytes c => c.Carried ∧
      ((∀ f ∈ c.triggers ++ c.functions, ∀ i ∈ f.code, i.Plain) → bytes = c.encode) := by
  refine takes_shortName.bind fun b1 language hlanguage =>
    takes_int32.bind fun b2 version hversion =>
      (takes_list16 takes_function).bind fun b3 triggers htriggers =>
        (takes_list16 takes_function).bind fun b4 functions hfunctions =>
          (takes_list16 takes_varDecl).bind fun b5 stateVars hvars =>
            (takes_list16 takes_mapDecl).bind fun b6 stateMaps hmaps =>
              takes_textualOption.bind_pure fun b7 textual htextual => ?_
  refine ⟨⟨hlanguage.1, htriggers.functions_carried, hfunctions.functions_carried,
    Nat.le_of_lt_succ hvars.1, Nat.le_of_lt_succ hmaps.1, htextual.1⟩, fun hplain => ?_⟩
  rw [List.forall_mem_append] at hplain
  rw [hlanguage.2, hversion, htriggers.eq_written fun f hf _ h => h.2 (hplain.1 f hf),
    hfunctions.eq_written fun f hf _ h => h.2 (hplain.2 f hf),
    hvars.eq_written fun _ _ _ h => h, hmaps.eq_written fun _ _ _ h => h, htextual.2]
  simp only [Contract.encode, List.append_assoc]
  rfl

end Reader

/-- A contract that was decoded, from whatever bytes and valid or not, is decoded again from what is
written for it. What is written are the bytes that it came from, unless it loads a big integer, of
which there are longer spellings than the one that is written. -/
theorem Contract.decoding_is_stable {bytes : Bytes} {c : Contract}
    (h : Contract.decode bytes = .ok c) :
    Contract.decode c.encode = .ok c ∧
    ((∀ f ∈ c.triggers ++ c.functions, ∀ i ∈ f.code, ∀ n dest, i ≠ .constant (.bigInteger n) dest) →
      c.encode = bytes) := by
  obtain ⟨hcarried, hplain⟩ := Reader.takes_contract.of_runWhole h
  exact ⟨hcarried.decode_encode, fun hnone => (hplain hnone).symm⟩

namespace Contract.Sample

/-- A contract with one trigger, which only loads a literal. -/
def loading (v : Value) : Contract where
  language := "vm"
  version := 1
  triggers := [{ id := 7, kind := .onInit, params := [], returns := [], code := [.constant v 9] }]
  functions := []
  stateVars := []
  stateMaps := []
  textual := none

/-- Its bytes, if these are those of the literal. -/
def bytes (literal : Bytes) : Bytes :=
  [2, 118, 109, 0, 0, 0, 1, 0, 1, 0, 7, 1, 0, 0, 0, 1, 0x20] ++ literal ++
    [9, 0, 0, 0, 0, 0, 0, 0]

end Contract.Sample

open Contract.Sample in
/-- The theorem at a big integer with a byte too many, which is written without it, and at a 32-bit
number, of which there is no other spelling. -/
theorem Contract.literals_written_again :
    Contract.decode (bytes [9, 0, 2, 0, 5]) = .ok (loading (.bigInteger 5)) ∧
    Contract.decode (loading (.bigInteger 5)).encode = .ok (loading (.bigInteger 5)) ∧
    (loading (.bigInteger 5)).encode ≠ bytes [9, 0, 2, 0, 5] ∧
    Contract.decode (bytes [4, 0, 0, 0, 5]) = .ok (loading (.int32 5)) ∧
    (loading (.int32 5)).encode = bytes [4, 0, 0, 0, 5] := by
  have hlong : Contract.decode (bytes [9, 0, 2, 0, 5]) = .ok (loading (.bigInteger 5)) := by
    decide +kernel
  have hplain : Contract.decode (bytes [4, 0, 0, 0, 5]) = .ok (loading (.int32 5)) := by
    decide +kernel
  refine ⟨hlong, (Contract.decoding_is_stable hlong).1, by decide, hplain, ?_⟩
  exact (Contract.decoding_is_stable hplain).2 (by simp [loading])

end ContractMachine
