import ContractMachine.Proofs.Effects
import ContractMachine.Validation.Typing

/-! Operands of checked instructions. Where the checker finds no flaw in an operand, the machine
finds a value there, and its type is the expected one unless the checker did not know it. -/

namespace ContractMachine

/-! ### Traps that checks rule out -/

namespace Trap

/-- A register or slot is not there, or an unset slot has no zero. -/
def isPlacement : Trap → Bool
  | undefinedRegister _ | registerOutOfRange _ | undeclaredVar _ | undeclaredMap _
  | noDefaultValue _ => true
  | _ => false

/-- A value has a type that the instruction does not take. -/
def isTyping : Trap → Bool
  | typeMismatch _ _ | invalidOperand _ _ | conversion (.unsupported _ _) => true
  | _ => false

/-- Checks do not rule the trap out. They rule out a wrong type only where all types are known. -/
def Allowed (known : Bool) (t : Trap) : Prop :=
  t.isPlacement = false ∧ (known = true → t.isTyping = false)

end Trap

/-- The error is a trap that checks do not rule out. -/
def ExecError.Allowed (known : Bool) : ExecError → Prop
  | trap _ cause => cause.Allowed known
  | _ => False

/-- The computation ends well, with a result that has the property, or in an allowed trap. -/
def Safe {α : Type} (known : Bool) (x : Except ExecError α) (P : α → Prop) : Prop :=
  match x with
  | .ok a => P a
  | .error e => e.Allowed known

section Safe

variable {α β : Type} {known : Bool} {position : Nat}

@[simp] theorem safe_ok (a : α) (P : α → Prop) : Safe known (.ok a) P ↔ P a := .rfl

@[simp] theorem safe_pure (a : α) (P : α → Prop) : Safe known (pure a) P ↔ P a := .rfl

@[simp] theorem safe_throw (t : Trap) (P : α → Prop) :
    Safe known (throw (.trap position t)) P ↔ t.Allowed known :=
  .rfl

theorem Safe.bind {x : Except ExecError α} {f : α → Except ExecError β} {P : α → Prop}
    {Q : β → Prop} (hx : Safe known x P) (hf : ∀ a, P a → Safe known (f a) Q) :
    Safe known (x >>= f) Q := by
  cases x with
  | ok a => exact hf a hx
  | error e => exact hx

/-- A condition that is tested, with a trap for the case that it fails. -/
theorem safe_ite {p : Prop} [Decidable p] {x : Except ExecError α} {t : Trap} {P : α → Prop}
    (hx : Safe known x P) (ht : t.Allowed known) :
    Safe known (if p then x else throw (.trap position t)) P := by
  by_cases hp : p
  · rwa [if_pos hp]
  · rwa [if_neg hp]

end Safe

/-! ### What the checker knows of a register -/

/-- The value has the known type, and it is the known literal. -/
structure Cells.Holds (known : Bool) (cells : Cells) (r : Register) (v : Value) : Prop where
  type_eq : cells.type? r = some v.type ∨ known = false ∧ cells.type? r = none
  literal_eq : ∀ t, cells.literal? r = some t → v = .dataType t

/-- Every register that the checker takes to be written holds what the checker knows of it. -/
def Cells.Tracks (known : Bool) (cells : Cells) (registers : RegisterFile) : Prop :=
  ∀ r, cells.contains r = true → ∃ v, registers.get? r = some v ∧ cells.Holds known r v

namespace Flaw

theorem ofTypes_eq_nil_iff {found expected : DataType} :
    ofTypes (some found) (some expected) = [] ↔ found = expected := by
  simp [ofTypes]

theorem ofClass_eq_nil_iff {op : Opcode} {accepts : DataType → Bool} {found : DataType} :
    ofClass op accepts (some found) = [] ↔ accepts found = true := by
  simp [ofClass]

theorem ofZero_eq_nil_iff {type : DataType} :
    ofZero (some type) = [] ↔ (Value.zero? type).isSome = true := by
  cases h : (Value.zero? type).isSome <;> simp [ofZero, h]

theorem ofConversion_eq_nil_iff {source target : DataType} :
    ofConversion (some source) (some target) = [] ↔ source.convertible target = true := by
  simp [ofConversion]

end Flaw

namespace Cells

variable {known : Bool} {cells : Cells} {registers : RegisterFile} {r : Register} {position : Nat}

theorem readFlaws_eq_nil_iff : cells.readFlaws r = [] ↔ cells.contains r = true := by
  simp [readFlaws]

theorem Holds.type?_eq {v : Value} (h : cells.Holds known r v) (hknown : known = true) :
    cells.type? r = some v.type := by
  rcases h.type_eq with h | ⟨hunknown, -⟩
  · exact h
  · simp [hknown] at hunknown

theorem Tracks.safe_get (h : cells.Tracks known registers) (hread : cells.readFlaws r = []) :
    Safe known (registers.get r position) (cells.Holds known r) := by
  obtain ⟨v, hget, hv⟩ := h r (readFlaws_eq_nil_iff.mp hread)
  rwa [RegisterFile.get_eq_ok_iff.mpr hget]

theorem Tracks.safe_getTyped (h : cells.Tracks known registers) {type : DataType}
    (hflaws : Instruction.operandFlaws cells r (some type) = []) :
    Safe known (registers.getTyped type r position) fun v => v.type = type := by
  obtain ⟨hread, htype⟩ := List.append_eq_nil_iff.mp hflaws
  refine (h.safe_get hread).bind fun v hv => ?_
  by_cases hsame : v.type = type
  · simp [hsame]
  · rw [if_neg hsame, safe_throw]
    refine ⟨rfl, fun hknown => absurd ?_ hsame⟩
    rw [hv.type?_eq hknown] at htype
    exact Flaw.ofTypes_eq_nil_iff.mp htype

/-- The reader fails only where there is no value of the type, and then for the same reason. -/
def Reads {α : Type} (type : DataType)
    (reader : RegisterFile → Register → Nat → Except ExecError α) : Prop :=
  ∀ registers r position e,
    reader registers r position = .error e → registers.getTyped type r position = .error e

theorem Tracks.safe_reader (h : cells.Tracks known registers) {α : Type} {type : DataType}
    {reader : RegisterFile → Register → Nat → Except ExecError α} (hreader : Reads type reader)
    (hflaws : Instruction.operandFlaws cells r (some type) = []) :
    Safe known (reader registers r position) fun _ => True := by
  have htyped : Safe known (registers.getTyped type r position) fun v => v.type = type :=
    h.safe_getTyped hflaws
  cases hresult : reader registers r position with
  | ok a => trivial
  | error e =>
      rw [hreader registers r position e hresult] at htyped
      exact htyped

end Cells

namespace RegisterFile

open Cells (Reads)

theorem reads_of_get {α : Type} {type : DataType} {f : Nat → Value → Except ExecError α}
    (hf : ∀ position v, v.type ≠ type ∧
      f position v = .error (.trap position (.typeMismatch type v.type)) ∨
        ∃ a, f position v = .ok a) :
    Reads type fun registers r position => registers.get r position >>= f position := by
  intro registers r position e h
  change registers.get r position >>= f position = .error e at h
  rw [getTyped]
  cases hget : registers.get r position with
  | error e' =>
      rw [hget] at h
      cases h
      rfl
  | ok v =>
      have hfv : f position v = .error e := by rwa [hget] at h
      rcases hf position v with ⟨htype, hmismatch⟩ | ⟨a, ha⟩
      · rw [hmismatch] at hfv
        cases hfv
        simp [bind, Except.bind, htype, throw, throwThe, MonadExceptOf.throw]
      · rw [ha] at hfv
        cases hfv

theorem reads_getAmount : Reads .amount getAmount :=
  reads_of_get fun _ v => by cases v <;> first | exact .inr ⟨_, rfl⟩ | exact .inl ⟨nofun, rfl⟩

theorem reads_getInt32 : Reads .int32 getInt32 :=
  reads_of_get fun _ v => by cases v <;> first | exact .inr ⟨_, rfl⟩ | exact .inl ⟨nofun, rfl⟩

theorem reads_getBool : Reads .boolean getBool :=
  reads_of_get fun _ v => by cases v <;> first | exact .inr ⟨_, rfl⟩ | exact .inl ⟨nofun, rfl⟩

theorem reads_getTimestamp : Reads .timestamp getTimestamp :=
  reads_of_get fun _ v => by cases v <;> first | exact .inr ⟨_, rfl⟩ | exact .inl ⟨nofun, rfl⟩

theorem reads_getText : Reads .shortText getText :=
  reads_of_get fun _ v => by cases v <;> first | exact .inr ⟨_, rfl⟩ | exact .inl ⟨nofun, rfl⟩

theorem reads_getBigInteger : Reads .bigInteger getBigInteger :=
  reads_of_get fun _ v => by cases v <;> first | exact .inr ⟨_, rfl⟩ | exact .inl ⟨nofun, rfl⟩

theorem reads_getDataType : Reads .dataType getDataType :=
  reads_of_get fun _ v => by cases v <;> first | exact .inr ⟨_, rfl⟩ | exact .inl ⟨nofun, rfl⟩

end RegisterFile

namespace Cells

variable {known : Bool} {cells : Cells} {registers : RegisterFile} {r : Register} {position : Nat}

theorem Tracks.safe_getAccount (h : cells.Tracks known registers) {op : Opcode}
    (hflaws : Instruction.accountFlaws cells op r = []) :
    Safe known (registers.getAccount op r position) fun _ => True := by
  obtain ⟨hread, hclass⟩ := List.append_eq_nil_iff.mp hflaws
  refine (h.safe_get hread).bind fun v hv => ?_
  have haccount : known = true → v.type.isAccountLike = true := by
    intro hknown
    rw [hv.type?_eq hknown] at hclass
    exact Flaw.ofClass_eq_nil_iff.mp hclass
  cases v <;> simp_all [Value.account?, Trap.Allowed, Trap.isPlacement, Trap.isTyping, Value.type,
    DataType.isAccountLike]

/-- Two registers that are checked as a pair hold values of one accepted type. -/
theorem Tracks.safe_pair (h : cells.Tracks known registers) {op : Opcode}
    {accepts : DataType → Bool} {a b : Register} {β : Type}
    {f : Value → Value → Except ExecError β} {P : β → Prop}
    (hflaws : Instruction.pairFlaws cells op accepts a b = [])
    (hf : ∀ va vb, cells.Holds known a va → cells.Holds known b vb →
      (known = true → va.type = vb.type ∧ accepts va.type = true) → Safe known (f va vb) P) :
    Safe known (registers.get a position >>= fun va => registers.get b position >>= fun vb =>
      f va vb) P := by
  simp only [Instruction.pairFlaws, List.append_eq_nil_iff] at hflaws
  obtain ⟨⟨⟨hreada, hreadb⟩, hclass⟩, htypes⟩ := hflaws
  refine (h.safe_get hreada).bind fun va ha => ?_
  refine (h.safe_get hreadb).bind fun vb hb => ?_
  refine hf va vb ha hb fun hknown => ?_
  rw [ha.type?_eq hknown] at hclass htypes
  rw [hb.type?_eq hknown] at htypes
  exact ⟨(Flaw.ofTypes_eq_nil_iff.mp htypes).symm, Flaw.ofClass_eq_nil_iff.mp hclass⟩

/-- A type that is read is the literal that was written. -/
theorem Tracks.safe_getDataType (h : cells.Tracks known registers)
    (hflaws : Instruction.operandFlaws cells r (some .dataType) = []) :
    Safe known (registers.getDataType r position) fun type =>
      ∀ literal, cells.literal? r = some literal → literal = type := by
  have hreader : Safe known (registers.getDataType r position) fun _ => True :=
    h.safe_reader RegisterFile.reads_getDataType hflaws
  have hread := (List.append_eq_nil_iff.mp hflaws).1
  obtain ⟨v, hget, hv⟩ := h r (readFlaws_eq_nil_iff.mp hread)
  rw [RegisterFile.getDataType, RegisterFile.get_eq_ok_iff.mpr hget] at hreader ⊢
  cases v with
  | dataType type =>
      intro literal hliteral
      cases hv.literal_eq literal hliteral
      rfl
  | _ => exact hreader

end Cells

/-! ### Arithmetic on operands -/

namespace Value

variable {known : Bool} {a b : Value} {position : Nat}

theorem type_of_binary {op : BinaryOp} {v : Value} (h : binary op a b = .ok v) :
    a.type = b.type ∧ v.type = b.type := by
  obtain ⟨x, y, n, -, -, htype, -, hv⟩ := binary_eq_ok_iff.mp h
  exact ⟨htype, (type_of_ofNumber? hv).trans htype⟩

/-- Operands that are refused have different types or one that is not accepted; where types are
known, the checker has ruled that out. -/
theorem allowed_operandFault (op : Opcode) {accepted : Prop}
    (h : known = true → a.type = b.type ∧ accepted) (hrefused : a.type = b.type → ¬accepted) :
    ((operandFault a b).error op position).Allowed known := by
  have hunknown : ¬known = true := by
    intro hknown
    obtain ⟨htype, haccepted⟩ := h hknown
    exact hrefused htype haccepted
  rw [operandFault]
  by_cases htype : a.type = b.type <;>
    simp [htype, Fault.error, ExecError.Allowed, Trap.Allowed, Trap.isPlacement, hunknown]

/-- Arithmetic on two numbers of one type gives a number of this type. -/
theorem safe_binary (op : Opcode) (operation : BinaryOp)
    (h : known = true → a.type = b.type ∧ a.type.isArithmetic = true) :
    Safe known (Fault.lift op position (binary operation a b)) fun v =>
      v.type = a.type ∧ v.type = b.type := by
  have hrefused : a.number? = none ∨ b.number? = none ∨ a.type ≠ b.type →
      ((operandFault a b).error op position).Allowed known := by
    intro hnone
    refine allowed_operandFault op h fun htype => ?_
    rw [← isSome_number?]
    rcases hnone with ha | hb | hne
    · simp [ha]
    · have hsome := isSome_number? b
      rw [hb, ← htype, ← isSome_number?] at hsome
      simp [← hsome]
    · contradiction
  rw [binary]
  cases ha : a.number? with
  | none => exact hrefused (.inl ha)
  | some x =>
      cases hb : b.number? with
      | none => exact hrefused (.inr (.inl hb))
      | some y =>
          by_cases htype : a.type = b.type
          · simp only [htype, if_true, BinaryOp.apply]
            by_cases hzero : operation = .divide ∧ y = 0
            · rw [if_pos hzero]
              exact ⟨rfl, fun _ => rfl⟩
            · simp only [if_neg hzero]
              cases hv : ofNumber? b.type (operation.exact x y) with
              | none => exact ⟨rfl, fun _ => rfl⟩
              | some v => exact ⟨type_of_ofNumber? hv, type_of_ofNumber? hv⟩
          · simp only [htype, if_false]
            exact hrefused (.inr (.inr htype))

theorem safe_order (op : Opcode) (h : known = true → a.type = b.type ∧ a.type.isComparable = true) :
    Safe known (Fault.lift op position (order a b)) fun _ => True := by
  unfold order
  split
  case h_5 hamount htimestamp hint32 hbig =>
    refine allowed_operandFault op h fun htype => ?_
    cases a <;> cases b <;> simp_all [type, DataType.isComparable, DataType.isArithmetic]
  all_goals trivial

/-- A number that is moved by a number of its type stays of this type. -/
theorem safe_move (op : Opcode) (direction : Direction) (htype : a.type = b.type)
    (hclass : b.type.isArithmetic = true) :
    Safe known (move op direction a b position) fun v => v.type = b.type := by
  have hnumber : b.number?.isSome = true := by rw [isSome_number?, hclass]
  obtain ⟨n, hn⟩ := Option.isSome_iff_exists.mp hnumber
  have hbinary : Safe known (Fault.lift op position (binary direction.op a b)) fun v =>
      v.type = a.type ∧ v.type = b.type :=
    safe_binary op direction.op fun _ => ⟨htype, htype ▸ hclass⟩
  have hmoved : Safe known (Fault.lift op position (binary direction.op a b) >>= fun next =>
      if direction = .minus ∧ next.sign? = some .lt then throw (.trap position .underflow)
      else pure next)
      fun v => v.type = b.type := by
    refine hbinary.bind fun next hnext => ?_
    split
    · exact ⟨rfl, fun _ => rfl⟩
    · exact hnext.2
  rw [move, sign?, hn]
  simp only [Option.map_some]
  cases orderInt n 0 with
  | gt => exact hmoved
  | lt => exact ⟨rfl, fun _ => rfl⟩
  | eq => exact ⟨rfl, fun _ => rfl⟩

theorem isSome_zero?_of_isArithmetic {type : DataType} (h : type.isArithmetic = true) :
    (zero? type).isSome = true := by
  cases type <;> first | rfl | cases h

theorem safe_orZero {stored : Option Value} {type : DataType}
    (hstored : ∀ v, stored = some v → v.type = type) (hzero : (zero? type).isSome = true) :
    Safe known (orZero stored type position) fun v => v.type = type := by
  cases hv : stored with
  | some v => exact hstored v hv
  | none =>
      obtain ⟨v, hv⟩ := Option.isSome_iff_exists.mp hzero
      rw [orZero, hv]
      exact type_of_zero? hv

/-- A stored number, or zero where none is stored, stays of its type when it is moved. -/
theorem safe_move_stored {op : Opcode} {direction : Direction} {stored : Option Value}
    {type : DataType} {delta : Value} {β : Type} {f : Value → Except ExecError β} {P : β → Prop}
    (hstored : ∀ v, stored = some v → v.type = type) (hclass : type.isArithmetic = true)
    (hdelta : delta.type = type) (hf : ∀ next, next.type = type → Safe known (f next) P) :
    Safe known (orZero stored type position >>= fun current =>
      move op direction current delta position >>= f) P := by
  subst hdelta
  refine (safe_orZero hstored (isSome_zero?_of_isArithmetic hclass)).bind fun current hcurrent => ?_
  exact (safe_move op direction hcurrent hclass).bind hf

/-- A conversion gives a value of the target type, or none fits, or the types do not convert. -/
theorem convert_cases (v : Value) (type : DataType) :
    (∃ w, v.convert type = .ok w ∧ w.type = type) ∨
      v.convert type = .error (.outOfRange type) ∨
      v.convert type = .error (.unsupported v.type type) ∧ v.type.convertible type = false := by
  fun_cases convert v type with
  | case1 n => exact .inl ⟨_, rfl, rfl⟩
  | case2 n x hx => exact .inl ⟨_, rfl, rfl⟩
  | case3 n hn => exact .inr (.inl rfl)
  | case4 hamount hbig =>
      refine .inr (.inr ⟨rfl, ?_⟩)
      cases v <;> cases type <;> simp_all [Value.type, DataType.convertible]

end Value

end ContractMachine
