import ContractMachine.Proofs.Wire.Readers
import ContractMachine.Wire.Contract

/-! What the wire format carries is read back. Texts, big integers and lists that fit their length
or count are carried; nothing else is cut or wrapped. -/

namespace ContractMachine

/-! ### What the format carries -/

/-- The literal, if there is one, fits its length. -/
def Instruction.Carried : Instruction → Prop
  | constant v _ => v.encodable = true
  | _ => True

structure Function.Carried (f : Function) : Prop where
  returns : f.returns.length ≤ 255
  params : f.params.length ≤ 255
  code : f.code.length ≤ 65535
  literals : ∀ i ∈ f.code, i.Carried

structure Signature.Carried (s : Signature) : Prop where
  name : Text.size s.name ≤ maxName
  params : s.params.length ≤ 255 ∧ ∀ name ∈ s.params, Text.size name ≤ maxName
  returns : s.returns.length ≤ 255 ∧ ∀ name ∈ s.returns, Text.size name ≤ maxName

structure Textual.Carried (t : Textual) : Prop where
  triggers : t.triggers.length ≤ 65535 ∧ ∀ s ∈ t.triggers, s.Carried
  functions : t.functions.length ≤ 65535 ∧ ∀ s ∈ t.functions, s.Carried
  stateVars : t.stateVars.length ≤ 65535 ∧ ∀ name ∈ t.stateVars, Text.size name ≤ maxName
  stateMaps : t.stateMaps.length ≤ 65535 ∧ ∀ name ∈ t.stateMaps, Text.size name ≤ maxName

structure Contract.Carried (c : Contract) : Prop where
  language : Text.size c.language ≤ 255
  triggers : c.triggers.length ≤ 65535 ∧ ∀ f ∈ c.triggers, f.Carried
  functions : c.functions.length ≤ 65535 ∧ ∀ f ∈ c.functions, f.Carried
  stateVars : c.stateVars.length ≤ 65535
  stateMaps : c.stateMaps.length ≤ 65535
  textual : ∀ t ∈ c.textual, t.Carried

namespace Reader

/-! ### Values -/

theorem parses_dataType (t : DataType) : dataType.Parses t.encode t := by
  refine (parses_byte t.code).bind_nil ?_
  rw [DataType.ofCode?_code]
  exact parses_pure t

theorem parses_boolean (b : Bool) : boolean.Parses [if b then 1 else 0] b := by
  cases b
  · exact (parses_byte 0).bind (parses_pure false)
  · exact (parses_byte 1).bind (parses_pure true)

theorem parses_tokenId (t : TokenId) :
    tokenId.Parses (t.contract.bytes ++ Writer.uint32 t.index) t :=
  (parses_fixed t.contract).bind ((parses_uint32 t.index).bind_pure (TokenId.mk t.contract))

theorem parses_payload {v : Value} (h : v.encodable = true) :
    (payload v.type).Parses v.payload v := by
  cases v with
  | address a => exact (parses_fixed a).bind_pure Value.address
  | account a => exact (parses_fixed a).bind_pure Value.account
  | amount n => exact (parses_int64 n).bind_pure Value.amount
  | int32 n => exact (parses_int32 n).bind_pure Value.int32
  | boolean b => exact (parses_boolean b).bind_pure Value.boolean
  | shortText s =>
      have hsize : Text.size s ≤ maxShortText := by
        simpa [Value.encodable, Value.payloadLength?] using h
      exact (parses_text hsize (by decide)).bind_pure Value.shortText
  | timestamp n => exact (parses_int64 n).bind_pure Value.timestamp
  | tokenId t => exact (parses_tokenId t).bind_pure Value.tokenId
  | bigInteger n =>
      have hwidth : (TwosComplement.encodeMin n).length ≤ maxBigInteger := by
        simpa [Value.encodable, Value.payloadLength?] using h
      have hread := (parses_block hwidth (by decide)).bind_pure fun bytes =>
        Value.bigInteger (TwosComplement.decode bytes)
      rwa [TwosComplement.decode_encodeMin] at hread
  | dataType t => exact (parses_dataType t).bind_pure Value.dataType

/-- A value is read back if the format carries it. -/
theorem parses_value {v : Value} (h : v.encodable = true) : value.Parses v.encode v :=
  (parses_dataType v.type).bind (parses_payload h)

/-! ### Instructions -/

theorem parses_opcode (op : Opcode) : opcode.Parses [op.code] op := by
  refine (parses_byte op.code).bind_nil ?_
  rw [Opcode.ofCode?_code]
  exact parses_pure op

theorem parses_operand1 (make : UInt8 → Instruction) (a : UInt8) :
    (operand1 make).Parses [a] (make a) :=
  (parses_byte a).bind_pure make

theorem parses_operand2 (make : UInt8 → UInt8 → Instruction) (a b : UInt8) :
    (operand2 make).Parses [a, b] (make a b) :=
  (parses_byte a).bind (parses_operand1 (make a) b)

theorem parses_operand3 (make : UInt8 → UInt8 → UInt8 → Instruction) (a b c : UInt8) :
    (operand3 make).Parses [a, b, c] (make a b c) :=
  (parses_byte a).bind (parses_operand2 (make a) b c)

theorem parses_operand4 (make : UInt8 → UInt8 → UInt8 → UInt8 → Instruction) (a b c d : UInt8) :
    (operand4 make).Parses [a, b, c, d] (make a b c d) :=
  (parses_byte a).bind (parses_operand3 (make a) b c d)

theorem parses_operands {i : Instruction} (h : i.Carried) :
    (operands i.opcode).Parses i.operands i := by
  cases i with
  | loadParty party dest => cases party <;> exact parses_operand1 _ dest
  | loadTimestamp dest => exact parses_operand1 _ dest
  | loadLastTokenIndex dest => exact parses_operand1 _ dest
  | assertParty party account => cases party <;> exact parses_operand1 _ account
  | assertTrue cond => exact parses_operand1 _ cond
  | assertPermitted cond => exact parses_operand1 _ cond
  | assertEqual a b => exact parses_operand2 _ a b
  | assertNotExpired now deadline => exact parses_operand2 _ now deadline
  | constant v dest => exact (parses_value h).bind (parses_operand1 _ dest)
  | binary op a b dest => cases op <;> exact parses_operand3 _ a b dest
  | sqrt a dest => exact parses_operand2 _ a dest
  | convert v target dest => exact parses_operand3 _ v target dest
  | not a dest => exact parses_operand2 _ a dest
  | compare relation a b dest => cases relation <;> exact parses_operand3 _ a b dest
  | setVar var v => exact parses_operand2 _ var v
  | getVar var dest => exact parses_operand2 _ var dest
  | getVarOrZero var dest => exact parses_operand2 _ var dest
  | moveVar direction var v => cases direction <;> exact parses_operand2 _ var v
  | setEntry map key v => exact parses_operand3 _ map key v
  | moveEntry direction map key v => cases direction <;> exact parses_operand3 _ map key v
  | getEntry map key dest => exact parses_operand3 _ map key dest
  | getEntryOrZero map key dest => exact parses_operand3 _ map key dest
  | newToken max unit description => exact parses_operand3 _ max unit description
  | deposit token amount holder => exact parses_operand3 _ token amount holder
  | transfer source token amount target => exact parses_operand4 _ source token amount target
  | balance token holder dest => exact parses_operand3 _ token holder dest

theorem parses_instruction {i : Instruction} (h : i.Carried) : instruction.Parses i.encode i :=
  (parses_opcode i.opcode).bind (parses_operands h)

/-! ### Functions and slots -/

theorem parses_functionKind (kind : FunctionKind) : functionKind.Parses kind.encode kind := by
  cases kind with
  | callable => exact (parses_byte 0).bind_nil (parses_pure _)
  | onInit => exact (parses_byte 1).bind_nil (parses_pure _)
  | onDeposit var => exact (parses_byte 2).bind ((parses_byte var).bind_pure FunctionKind.onDeposit)
  | onWithdraw var =>
      exact (parses_byte 3).bind ((parses_byte var).bind_pure FunctionKind.onWithdraw)

theorem parses_function {f : Function} (h : f.Carried) : function.Parses f.encode f := by
  simp only [Function.encode, List.append_assoc]
  refine (parses_uint16 f.id).bind ?_
  refine (parses_functionKind f.kind).bind ?_
  refine (parses_list8 h.returns fun t _ => parses_dataType t).bind ?_
  refine (parses_list8 h.params fun t _ => parses_dataType t).bind ?_
  refine (parses_list16 h.code fun i hi => parses_instruction (h.literals i hi)).bind_nil ?_
  exact parses_pure f

theorem parses_varDecl (d : VarDecl) : varDecl.Parses d.encode d :=
  (parses_byte d.index).bind ((parses_dataType d.type).bind_pure (VarDecl.mk d.index))

theorem parses_mapDecl (d : MapDecl) : mapDecl.Parses d.encode d :=
  (parses_byte d.index).bind ((parses_dataType d.key).bind
    ((parses_dataType d.value).bind_pure (MapDecl.mk d.index d.key)))

/-! ### Names -/

theorem parses_name {s : String} (h : Text.size s ≤ maxName) :
    (text maxName).Parses (Writer.text s) s :=
  parses_text h (by decide)

theorem parses_signature {s : Signature} (h : s.Carried) : signature.Parses s.encode s := by
  simp only [Signature.encode, List.append_assoc]
  refine (parses_name h.name).bind ?_
  refine (parses_list8 h.params.1 fun name hname => parses_name (h.params.2 name hname)).bind ?_
  refine (parses_list8 h.returns.1 fun name hname =>
    parses_name (h.returns.2 name hname)).bind_nil ?_
  exact parses_pure s

theorem parses_textual {t : Textual} (h : t.Carried) : textual.Parses t.encode t := by
  simp only [Textual.encode, List.append_assoc]
  refine (parses_list16 h.triggers.1 fun s hs => parses_signature (h.triggers.2 s hs)).bind ?_
  refine (parses_list16 h.functions.1 fun s hs => parses_signature (h.functions.2 s hs)).bind ?_
  refine (parses_list16 h.stateVars.1 fun name hname =>
    parses_name (h.stateVars.2 name hname)).bind ?_
  refine (parses_list16 h.stateMaps.1 fun name hname =>
    parses_name (h.stateMaps.2 name hname)).bind_nil ?_
  exact parses_pure t

theorem parses_textualOption {o : Option Textual} (h : ∀ t ∈ o, t.Carried) :
    textualOption.Parses (Textual.encodeOption o) o := by
  cases o with
  | none => exact (parses_byte 0).bind_nil (parses_pure none)
  | some t => exact (parses_byte 1).bind ((parses_textual (h t rfl)).bind_pure some)

theorem parses_shortName {s : String} (h : Text.size s ≤ 255) :
    shortName.Parses (Writer.shortName s) s := by
  have hlength : (Text.encode s).length ≤ 255 := h
  have hkept : (Text.encode s).take 255 = Text.encode s := List.take_of_length_le hlength
  have hn : (UInt8.ofNat (Text.encode s).length).toNat = (Text.encode s).length :=
    UInt8.toNat_ofNat_of_lt (Nat.lt_succ_of_le hlength)
  rw [Writer.shortName, hkept]
  refine parses_position_bind fun offset => (parses_byte _).bind ?_
  rw [hn]
  exact (parses_take _).bind_nil (parses_decodeText offset s)

/-! ### Contracts -/

/-- What the format carries of a contract is all of it. -/
theorem parses_contract {c : Contract} (h : c.Carried) : contract.Parses c.encode c := by
  simp only [Contract.encode, List.append_assoc]
  refine (parses_shortName h.language).bind ?_
  refine (parses_int32 c.version).bind ?_
  refine (parses_list16 h.triggers.1 fun f hf => parses_function (h.triggers.2 f hf)).bind ?_
  refine (parses_list16 h.functions.1 fun f hf => parses_function (h.functions.2 f hf)).bind ?_
  refine (parses_list16 h.stateVars fun d _ => parses_varDecl d).bind ?_
  refine (parses_list16 h.stateMaps fun d _ => parses_mapDecl d).bind ?_
  refine (parses_textualOption h.textual).bind_nil ?_
  exact parses_pure c

end Reader

theorem Contract.Carried.decode_encode {c : Contract} (h : c.Carried) :
    Contract.decode c.encode = .ok c :=
  (Reader.parses_contract h).runWhole_eq_ok

end ContractMachine
