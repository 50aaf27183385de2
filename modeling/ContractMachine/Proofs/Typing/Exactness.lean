import ContractMachine.Proofs.Typing.Soundness

/-! Exactness of the type check. An instruction that succeeds has no flaw, except that the check
asks every slot for a zero and a run only the unset ones; so a body with another flaw never
completes, whatever it is called with. -/

namespace ContractMachine

/-! ### Operands that were read -/

namespace Flaw

theorem ofTypes_eq_nil {found expected : Option DataType}
    (h : ∀ s t, found = some s → expected = some t → s = t) : ofTypes found expected = [] := by
  cases found with
  | none => rfl
  | some s =>
      cases expected with
      | none => rfl
      | some t => exact ofTypes_eq_nil_iff.mpr (h s t rfl rfl)

theorem ofClass_eq_nil {op : Opcode} {accepts : DataType → Bool} {found : Option DataType}
    (h : ∀ t, found = some t → accepts t = true) : ofClass op accepts found = [] := by
  cases found with
  | none => rfl
  | some t => exact ofClass_eq_nil_iff.mpr (h t rfl)

theorem ofConversion_eq_nil {source target : Option DataType}
    (h : ∀ s t, source = some s → target = some t → s.convertible t = true) :
    ofConversion source target = [] := by
  cases source with
  | none => rfl
  | some s =>
      cases target with
      | none => rfl
      | some t => exact ofConversion_eq_nil_iff.mpr (h s t rfl rfl)

/-- The only flaw that asking for a zero can find. -/
theorem eq_noDefaultValue_of_mem_ofZero {type : Option DataType} {flaw : Flaw}
    (h : flaw ∈ ofZero type) : ∃ t, flaw = .noDefaultValue t := by
  cases type with
  | none => cases h
  | some t =>
      rw [ofZero] at h
      split at h
      · cases h
      · exact ⟨t, List.mem_singleton.mp h⟩

end Flaw

namespace Cells

/-- The checker takes every register that can be read to be written, and what it knows of the
register is true. -/
def Covers (cells : Cells) (registers : RegisterFile) : Prop :=
  ∀ r v, registers.get? r = some v → cells.contains r = true ∧ cells.Holds false r v

namespace Covers

variable {cells : Cells} {registers : RegisterFile} {r : Register} {v : Value}

theorem readFlaws_eq_nil (h : cells.Covers registers) (hv : registers.get? r = some v) :
    cells.readFlaws r = [] :=
  readFlaws_eq_nil_iff.mpr (h r v hv).1

theorem type_eq (h : cells.Covers registers) (hv : registers.get? r = some v) {t : DataType}
    (ht : cells.type? r = some t) : t = v.type := by
  rcases (h r v hv).2.type_eq with hknown | ⟨-, hunknown⟩
  · exact Option.some.inj (ht.symm.trans hknown)
  · rw [hunknown] at ht
    cases ht

theorem operandFlaws_eq_nil (h : cells.Covers registers) (hv : registers.get? r = some v) :
    Instruction.operandFlaws cells r (some v.type) = [] := by
  refine List.append_eq_nil_iff.mpr ⟨h.readFlaws_eq_nil hv, Flaw.ofTypes_eq_nil ?_⟩
  rintro s _ hs ⟨⟩
  exact h.type_eq hv hs

theorem accountFlaws_eq_nil (h : cells.Covers registers) (hv : registers.get? r = some v)
    {a : Address} (ha : v.account? = some a) (op : Opcode) :
    Instruction.accountFlaws cells op r = [] := by
  refine List.append_eq_nil_iff.mpr ⟨h.readFlaws_eq_nil hv, Flaw.ofClass_eq_nil fun t ht => ?_⟩
  rw [h.type_eq hv ht]
  cases v <;> first | rfl | cases ha

theorem pairFlaws_eq_nil (h : cells.Covers registers) {a b : Register} {va vb : Value}
    (ha : registers.get? a = some va) (hb : registers.get? b = some vb) (htypes : va.type = vb.type)
    {accepts : DataType → Bool} (haccepts : accepts va.type = true) (op : Opcode) :
    Instruction.pairFlaws cells op accepts a b = [] := by
  simp only [Instruction.pairFlaws, List.append_eq_nil_iff]
  refine ⟨⟨⟨h.readFlaws_eq_nil ha, h.readFlaws_eq_nil hb⟩, Flaw.ofClass_eq_nil fun t ht => ?_⟩,
    Flaw.ofTypes_eq_nil fun s t hs ht => ?_⟩
  · rwa [h.type_eq ha ht]
  · rw [h.type_eq hb hs, h.type_eq ha ht, htypes]

/-- The literal that the checker knows is the type that was read. -/
theorem literal_eq (h : cells.Covers registers) {type t : DataType}
    (htype : registers.get? r = some (.dataType type)) (ht : cells.literal? r = some t) :
    t = type := by
  cases (h r _ htype).2.literal_eq t ht
  rfl

theorem insert (h : cells.Covers registers) {dest : Register} {cell : Cell}
    (hdest : dest.toNat < registers.capacity)
    (hcell : Holds false (cells.insert dest cell) dest v) :
    Covers (cells.insert dest cell) (registers.write dest v) := by
  intro j w hw
  rw [RegisterFile.get?_write hdest] at hw
  by_cases hj : j = dest
  · subst hj
    rw [if_pos rfl] at hw
    cases hw
    exact ⟨by simp [OrderedMap.contains], hcell⟩
  · rw [if_neg hj] at hw
    obtain ⟨hcontains, hholds⟩ := h j w hw
    refine ⟨?_, hholds.insert_of_ne hj cell⟩
    simpa [OrderedMap.contains, OrderedMap.get?_insert, hj] using hcontains

end Covers

theorem covers_ofParams (capacity : Nat) (args : List Value) :
    (ofParams (args.map Value.type)).Covers (.ofValues capacity args) := by
  intro r v hv
  obtain ⟨-, hget⟩ := RegisterFile.get?_eq_some_iff.mp hv
  exact holds_ofParams ((RegisterFile.get?_ofValues capacity args r).symm.trans hget)

end Cells

/-! ### Values that operations accepted -/

namespace Value

theorem isArithmetic_of_binary {op : BinaryOp} {a b v : Value} (h : binary op a b = .ok v) :
    b.type.isArithmetic = true := by
  obtain ⟨x, y, n, -, hy, -, -, -⟩ := binary_eq_ok_iff.mp h
  exact isArithmetic_of_number? hy

theorem types_of_order {a b : Value} {o : Ordering} (h : order a b = .ok o) :
    a.type = b.type ∧ a.type.isComparable = true := by
  fun_cases order a b with
  | case5 => simp [order] at h
  | _ => exact ⟨rfl, rfl⟩

theorem types_of_convert {v w : Value} {type : DataType} (h : v.convert type = .ok w) :
    w.type = type ∧ v.type.convertible type = true := by
  rcases convert_eq_ok_iff.mp h with ⟨n, rfl, rfl, rfl⟩ | ⟨x, rfl, rfl, rfl⟩
  · exact ⟨rfl, rfl⟩
  · exact ⟨rfl, rfl⟩

end Value

/-! ### Instructions that succeeded -/

namespace Instruction.Yields

variable {c : Contract} {context : Context} {view : View} {cells : Cells}
  {registers : RegisterFile} {i : Instruction} {effect : Effect}

/-- An instruction that succeeds has no flaw but that a slot may lack a zero. -/
theorem eq_noDefaultValue (h : i.Yields ⟨c, context⟩ view registers effect)
    (hcovers : cells.Covers registers) {flaw : Flaw} (hflaw : flaw ∈ i.typeFlaws c cells) :
    ∃ t, flaw = .noDefaultValue t := by
  have hnone : i.typeFlaws c cells = [] → ∃ t, flaw = .noDefaultValue t := by
    intro hnil
    rw [hnil] at hflaw
    cases hflaw
  cases h with
  | loadParty ha => exact hnone rfl
  | loadTimestamp hnow => exact hnone rfl
  | loadLastTokenIndex hn => exact hnone rfl
  | assertParty hv ha hparty => exact hnone (hcovers.accountFlaws_eq_nil hv ha _)
  | assertTrue hcond => exact hnone (hcovers.operandFlaws_eq_nil hcond)
  | assertPermitted hcond => exact hnone (hcovers.operandFlaws_eq_nil hcond)
  | assertEqual ha hb =>
      apply hnone
      simp only [typeFlaws, List.append_eq_nil_iff]
      refine ⟨⟨hcovers.readFlaws_eq_nil ha, hcovers.readFlaws_eq_nil hb⟩, ?_⟩
      exact Flaw.ofTypes_eq_nil fun s t hs ht =>
        (hcovers.type_eq hb hs).trans (hcovers.type_eq ha ht).symm
  | assertNotExpired hnow hdeadline hle =>
      apply hnone
      simp only [typeFlaws, List.append_eq_nil_iff]
      exact ⟨hcovers.operandFlaws_eq_nil hnow, hcovers.operandFlaws_eq_nil hdeadline⟩
  | constant => exact hnone rfl
  | binary ha hb hv =>
      have htypes := (Value.type_of_binary hv).1
      have hclass := Value.isArithmetic_of_binary hv
      exact hnone (hcovers.pairFlaws_eq_nil ha hb htypes (htypes ▸ hclass) _)
  | sqrt ha hroot => exact hnone (hcovers.operandFlaws_eq_nil ha)
  | convert htarget hvalue hw =>
      apply hnone
      simp only [typeFlaws, List.append_eq_nil_iff]
      refine ⟨⟨hcovers.readFlaws_eq_nil hvalue, hcovers.operandFlaws_eq_nil htarget⟩, ?_⟩
      refine Flaw.ofConversion_eq_nil fun s t hs ht => ?_
      rw [hcovers.type_eq hvalue hs, hcovers.literal_eq htarget ht]
      exact (Value.types_of_convert hw).2
  | not ha => exact hnone (hcovers.operandFlaws_eq_nil ha)
  | compare ha hb horder =>
      obtain ⟨htypes, hclass⟩ := Value.types_of_order horder
      exact hnone (hcovers.pairFlaws_eq_nil ha hb htypes hclass _)
  | setVar hd hv htype =>
      apply hnone
      rw [typeFlaws, Contract.varType?_eq hd, ← htype]
      exact hcovers.operandFlaws_eq_nil hv
  | getVar hd hv => exact hnone rfl
  | getVarOrZero hd hv =>
      -- a variable that is set is read whether or not its type has a zero
      exact Flaw.eq_noDefaultValue_of_mem_ofZero hflaw
  | moveVar hd hdelta htype hcurrent hnext =>
      apply hnone
      have hclass := Value.isArithmetic_of_binary hnext.result
      obtain ⟨hread, htypes⟩ := List.append_eq_nil_iff.mp (hcovers.operandFlaws_eq_nil hdelta)
      simp only [typeFlaws, Contract.varType?_eq hd, ← htype, List.append_eq_nil_iff,
        Flaw.ofClass_eq_nil_iff]
      exact ⟨⟨hread, hclass⟩, htypes⟩
  | setEntry hd hk hkey hv htype =>
      apply hnone
      simp only [typeFlaws, Contract.keyType?_eq hd, Contract.entryType?_eq hd, ← hkey, ← htype,
        List.append_eq_nil_iff]
      exact ⟨hcovers.operandFlaws_eq_nil hk, hcovers.operandFlaws_eq_nil hv⟩
  | moveEntry hd hk hkey hdelta htype hcurrent hnext =>
      apply hnone
      have hclass := Value.isArithmetic_of_binary hnext.result
      obtain ⟨hread, htypes⟩ := List.append_eq_nil_iff.mp (hcovers.operandFlaws_eq_nil hdelta)
      simp only [typeFlaws, Contract.keyType?_eq hd, Contract.entryType?_eq hd, ← hkey, ← htype,
        List.append_eq_nil_iff, Flaw.ofClass_eq_nil_iff]
      exact ⟨⟨⟨hcovers.operandFlaws_eq_nil hk, hread⟩, hclass⟩, htypes⟩
  | getEntry hd hk hkey hv =>
      apply hnone
      rw [typeFlaws, Contract.keyType?_eq hd, ← hkey]
      exact hcovers.operandFlaws_eq_nil hk
  | getEntryOrZero hd hk hkey hv =>
      rw [typeFlaws, Contract.keyType?_eq hd, ← hkey, hcovers.operandFlaws_eq_nil hk,
        List.nil_append] at hflaw
      exact Flaw.eq_noDefaultValue_of_mem_ofZero hflaw
  | newToken hmax hunit htext hok =>
      apply hnone
      simp only [typeFlaws, List.append_eq_nil_iff]
      exact ⟨⟨hcovers.operandFlaws_eq_nil hmax, hcovers.operandFlaws_eq_nil hunit⟩,
        hcovers.operandFlaws_eq_nil htext⟩
  | deposit htoken hamount hv ha hok =>
      apply hnone
      simp only [typeFlaws, List.append_eq_nil_iff]
      exact ⟨⟨hcovers.operandFlaws_eq_nil htoken, hcovers.operandFlaws_eq_nil hamount⟩,
        hcovers.accountFlaws_eq_nil hv ha _⟩
  | transfer hv ha htoken hamount hw hb hok =>
      apply hnone
      simp only [typeFlaws, List.append_eq_nil_iff]
      exact ⟨⟨⟨hcovers.accountFlaws_eq_nil hv ha _, hcovers.operandFlaws_eq_nil htoken⟩,
        hcovers.operandFlaws_eq_nil hamount⟩, hcovers.accountFlaws_eq_nil hw hb _⟩
  | balance htoken hv ha hx =>
      apply hnone
      simp only [typeFlaws, List.append_eq_nil_iff]
      exact ⟨hcovers.operandFlaws_eq_nil htoken, hcovers.accountFlaws_eq_nil hv ha _⟩

/-- An instruction that succeeds does what the checker foretells, also where it has found flaws. -/
theorem foretells (h : i.Yields ⟨c, context⟩ view registers effect)
    (hcovers : cells.Covers registers) (hview : view.Typed c) :
    i.Foretells false c cells effect := by
  cases h with
  | loadParty ha => exact foretells_result rfl rfl rfl
  | loadTimestamp hnow => exact foretells_result rfl rfl rfl
  | loadLastTokenIndex hn => exact foretells_result rfl rfl rfl
  | assertParty hv ha hparty => exact ⟨rfl, List.forall_mem_nil _⟩
  | assertTrue hcond => exact ⟨rfl, List.forall_mem_nil _⟩
  | assertPermitted hcond => exact ⟨rfl, List.forall_mem_nil _⟩
  | assertEqual ha hb => exact ⟨rfl, List.forall_mem_nil _⟩
  | assertNotExpired hnow hdeadline hle => exact ⟨rfl, List.forall_mem_nil _⟩
  | @constant value dest =>
      refine ⟨rfl, .inl rfl, fun t ht => ?_⟩
      cases value <;> simp_all [literal?]
  | @binary op a b dest va vb v ha hb hv =>
      refine ⟨rfl, ?_, by simp [literal?]⟩
      -- the operands have one type, so it does not matter which of them the checker knows
      obtain ⟨htypes, hresult⟩ := Value.type_of_binary hv
      rcases (hcovers a va ha).2.type_eq with hknown | ⟨-, hunknown⟩
      · exact .inl (by simp [resultType?, hknown, hresult, htypes])
      · rcases (hcovers b vb hb).2.type_eq with hknown | ⟨-, hneither⟩
        · exact .inl (by simp [resultType?, hunknown, hknown, hresult])
        · exact .inr ⟨rfl, by simp [resultType?, hunknown, hneither]⟩
  | sqrt ha hroot => exact foretells_result rfl rfl rfl
  | @convert value target dest v type w htarget hvalue hw =>
      refine ⟨rfl, ?_, by simp [literal?]⟩
      cases hliteral : cells.literal? target with
      | none => exact .inr ⟨rfl, hliteral⟩
      | some t =>
          refine .inl (hliteral.trans ?_)
          rw [hcovers.literal_eq htarget hliteral, (Value.types_of_convert hw).1]
  | not ha => exact foretells_result rfl rfl rfl
  | compare ha hb horder => exact foretells_result rfl rfl rfl
  | setVar hd hv htype => exact ⟨rfl, by simpa using Update.fits_var hd htype⟩
  | getVar hd hv =>
      have htype := hview.var hd hv
      exact foretells_result rfl (by rw [resultType?, Contract.varType?_eq hd, htype]) rfl
  | getVarOrZero hd hv =>
      have htype := Value.of_or_zero? hv (fun _ => hview.var hd) fun _ => Value.type_of_zero?
      exact foretells_result rfl (by rw [resultType?, Contract.varType?_eq hd, htype]) rfl
  | moveVar hd hdelta htype hcurrent hnext =>
      have hresult := (Value.type_of_binary hnext.result).2.trans htype
      exact ⟨rfl, by simpa using Update.fits_var hd hresult⟩
  | setEntry hd hk hkey hv htype =>
      exact ⟨rfl, by simpa using Update.fits_entry hd hkey htype⟩
  | moveEntry hd hk hkey hdelta htype hcurrent hnext =>
      have hresult := (Value.type_of_binary hnext.result).2.trans htype
      exact ⟨rfl, by simpa using Update.fits_entry hd hkey hresult⟩
  | getEntry hd hk hkey hv =>
      have htype := (hview.entry hd hv).2
      exact foretells_result rfl (by rw [resultType?, Contract.entryType?_eq hd, htype]) rfl
  | getEntryOrZero hd hk hkey hv =>
      have htype := Value.of_or_zero? hv (fun _ hw => (hview.entry hd hw).2)
        fun _ => Value.type_of_zero?
      exact foretells_result rfl (by rw [resultType?, Contract.entryType?_eq hd, htype]) rfl
  | newToken hmax hunit htext hok => exact ⟨rfl, (view.ledgerWrites_newToken _ _ _).fits⟩
  | deposit htoken hamount hv ha hok => exact ⟨rfl, (view.ledgerWrites_deposit _ _ _).fits⟩
  | transfer hv ha htoken hamount hw hb hok =>
      exact ⟨rfl, (view.ledgerWrites_transfer _ _ _ _).fits⟩
  | balance htoken hv ha hx => exact foretells_result rfl rfl rfl

end Instruction.Yields

/-! ### Bodies that completed -/

namespace Machine

variable {c : Contract} {context : Context} {cells : Cells} {m next : Machine}

/-- All that can be read is what the checker and the declarations say. -/
structure Foretold (c : Contract) (cells : Cells) (m : Machine) : Prop where
  registers : cells.Covers m.registers
  view : m.overlay.view.Typed c

theorem Foretold.step (h : m.Foretold c cells) {i : Instruction}
    (hstep : m.Steps ⟨c, context⟩ i next) :
    (∀ flaw ∈ i.typeFlaws c cells, ∃ t, flaw = .noDefaultValue t) ∧
      next.Foretold c (i.typesAfter c cells) := by
  cases hstep with
  | @result dest v hyields hroom =>
      obtain ⟨hdest, htype, hliteral⟩ := hyields.foretells h.registers h.view
      refine ⟨fun _ => hyields.eq_noDefaultValue h.registers, ?_, h.view⟩
      rw [Instruction.typesAfter, hdest]
      exact h.registers.insert hroom (Cells.holds_insert_self htype hliteral)
  | @updates us hyields =>
      obtain ⟨hdest, hus⟩ := hyields.foretells h.registers h.view
      refine ⟨fun _ => hyields.eq_noDefaultValue h.registers, ?_, ?_⟩
      · rw [Instruction.typesAfter, hdest]
        exact h.registers
      · rw [Overlay.view_record]
        exact h.view.foldl_update hus

theorem Foretold.runFrom {code : List Instruction} {start position : Nat}
    (h : m.Foretold c cells) (hrun : m.runFrom ⟨c, context⟩ start code = .ok next) :
    ∀ e ∈ c.typeFlawsFrom position cells code, ∃ t, e.2 = .noDefaultValue t := by
  induction code generalizing start position cells m with
  | nil => exact List.forall_mem_nil _
  | cons i rest ih =>
      obtain ⟨after, hstep, hrest⟩ := runFrom_cons_eq_ok_iff.mp hrun
      obtain ⟨hflaws, hafter⟩ := h.step hstep
      intro e he
      rcases List.mem_append.mp he with hhere | hlater
      · obtain ⟨flaw, hflaw, rfl⟩ := List.mem_map.mp hhere
        exact hflaws flaw hflaw
      · exact ih hafter hrest e hlater

end Machine

/-- A body with a flaw that is not the lack of a zero fails in every call, whoever makes it and
with whatever arguments, on every state that has the declared types. -/
theorem Contract.flawed_bodies_never_complete {c : Contract} {role : Role} {f : Function}
    {defect : Defect} (hdefect : defect ∈ c.functionTypeDefects role f)
    (hother : ∀ site type, defect ≠ .inBody site (.noDefaultValue type)) (context : Context)
    (capacity : Nat) {base : View} (hbase : base.Typed c) (args : List Value) :
    ∃ e, f.run ⟨c, context⟩ capacity base args = .error e := by
  cases hrun : f.run ⟨c, context⟩ capacity base args with
  | error e => exact ⟨e, rfl⟩
  | ok m =>
      obtain ⟨⟨hargs, -⟩, -, hbody⟩ := Function.run_eq_ok hrun
      have hstart : Machine.Foretold c (.ofParams f.params)
          ⟨.ofValues capacity args, { base }⟩ := by
        rw [← hargs]
        exact ⟨Cells.covers_ofParams capacity args, hbase⟩
      obtain ⟨⟨position, flaw⟩, hflaw, rfl⟩ := List.mem_map.mp hdefect
      obtain ⟨type, htype⟩ := hstart.runFrom hbody _ hflaw
      exact absurd (congrArg (Defect.inBody _) htype) (hother _ type)

/-- A contract whose function asserts an account. -/
def Contract.assertsAccount : Contract where
  language := languageId
  version := 1
  triggers := [⟨0, .onInit, [], [], []⟩]
  functions := [⟨0, .callable, [], [], [.getVarOrZero 0 0, .assertTrue 0]⟩]
  stateVars := [⟨0, .address⟩]
  stateMaps := []
  textual := none

/-- Where the account is set, the body gets past the lack of a zero and fails at the flaw behind
it. -/
theorem Contract.assertsAccount_never_completes :
    let account : Address := ⟨List.replicate 26 1, rfl⟩
    let base : View := Store.view { vars := .ofList [(0, .address account)] }
    let body : Function := ⟨0, .callable, [], [], [.getVarOrZero 0 0, .assertTrue 0]⟩
    assertsAccount.structureDefects = [] ∧ assertsAccount.boundsDefects {} = [] ∧
      assertsAccount.typeDefects =
        [.inBody ⟨.function, 0, 0⟩ (.noDefaultValue .address),
          .inBody ⟨.function, 0, 1⟩ (.typeMismatch .boolean .address)] ∧
      base.Typed assertsAccount ∧
      ∃ e, body.run ⟨assertsAccount, {}⟩ 64 base [] = .error e := by
  intro account base body
  have htyped : base.Typed assertsAccount := by
    refine ⟨fun {index d v} hd hv => ?_, nofun⟩
    have hmem : (index, v) ∈ [((0 : SlotIndex), Value.address account)] :=
      OrderedMap.get?_eq_some_iff.mp hv
    obtain ⟨rfl, rfl⟩ := Prod.mk.inj (List.mem_singleton.mp hmem)
    cases hd
    rfl
  have hdefect : Defect.inBody ⟨.function, 0, 1⟩ (.typeMismatch .boolean .address) ∈
      assertsAccount.functionTypeDefects .function body := by decide
  refine ⟨rfl, rfl, rfl, htyped, ?_⟩
  exact flawed_bodies_never_complete hdefect nofun {} 64 htyped []

end ContractMachine
