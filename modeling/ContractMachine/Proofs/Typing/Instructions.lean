import ContractMachine.Proofs.Acceptance
import ContractMachine.Proofs.State.Operations
import ContractMachine.Proofs.Typing.Operands

/-! Steps of checked code. On a state with the declared types, an instruction without flaws does
what the checker foretells, so that the registers that the checker keeps track of describe those
of the machine after it as well. -/

namespace ContractMachine

/-! ### States with the declared types -/

/-- What is stored in declared slots has the declared types. -/
structure View.Typed (view : View) (c : Contract) : Prop where
  var : ∀ {index d v}, c.stateVar? index = some d → view.var index = some v → v.type = d.type
  entry : ∀ {index d k v}, c.stateMap? index = some d → view.entry index k = some v →
    k.type = d.key ∧ v.type = d.value

/-- An update that writes to declared slots only what they are declared for. -/
def Update.Fits (c : Contract) : Update → Prop
  | .var index v => ∀ d, c.stateVar? index = some d → v.type = d.type
  | .entry index k v => ∀ d, c.stateMap? index = some d → k.type = d.key ∧ v.type = d.value
  | .token _ _ | .tokenCount _ | .balance _ _ _ => True

namespace View

variable {view : View} {c : Contract}

theorem typed_iff_every : view.Typed c ↔ view.Every (Update.Fits c) := by
  constructor
  · intro h
    exact ⟨fun _ _ hv _ hd => h.var hd hv, fun _ _ _ hv _ hd => h.entry hd hv, fun _ _ _ => trivial⟩
  · intro h
    exact ⟨fun hd hv => h.var _ _ hv _ hd, fun hd hv => h.entry _ _ _ hv _ hd⟩

theorem Typed.foldl_update {us : List Update} (h : view.Typed c) (hus : ∀ u ∈ us, u.Fits c) :
    (us.foldl View.update view).Typed c :=
  typed_iff_every.mpr ((typed_iff_every.mp h).foldl_update hus)

end View

/-! ### One instruction -/

/-- What the checker takes the effect of an instruction to be. -/
def Instruction.Foretells (known : Bool) (c : Contract) (cells : Cells) (i : Instruction) :
    Effect → Prop
  | .result dest v => i.dest? = some dest ∧
      (i.resultType? c cells = some v.type ∨ known = false ∧ i.resultType? c cells = none) ∧
      ∀ t, i.literal? = some t → v = .dataType t
  | .updates us => i.dest? = none ∧ ∀ u ∈ us, u.Fits c

theorem Instruction.foretells_result {known : Bool} {c : Contract} {cells : Cells}
    {i : Instruction} {dest : Register} {v : Value} (hdest : i.dest? = some dest)
    (htype : i.resultType? c cells = some v.type) (hliteral : i.literal? = none) :
    i.Foretells known c cells (.result dest v) :=
  ⟨hdest, .inl htype, by simp [hliteral]⟩

/-- The checker knows the type that a conversion goes to. -/
def Instruction.TargetKnown (cells : Cells) : Instruction → Prop
  | convert _ target _ => (cells.literal? target).isSome = true
  | _ => True

section Reads

variable {known : Bool} {c : Contract} {context : Context} {position : Nat}

theorem Context.safe_party (party : Party) :
    Safe known (context.party party position) fun _ => True := by
  rw [Context.party]
  cases context.party? party with
  | some a => trivial
  | none => exact ⟨rfl, fun _ => rfl⟩

theorem Env.safe_stateVar {index : SlotIndex} (h : (c.stateVar? index).isSome = true) :
    Safe known (Env.stateVar ⟨c, context⟩ index position) fun d => c.stateVar? index = some d := by
  obtain ⟨d, hd⟩ := Option.isSome_iff_exists.mp h
  simp [Env.stateVar, hd]

theorem Env.safe_stateMap {index : SlotIndex} (h : (c.stateMap? index).isSome = true) :
    Safe known (Env.stateMap ⟨c, context⟩ index position) fun d => c.stateMap? index = some d := by
  obtain ⟨d, hd⟩ := Option.isSome_iff_exists.mp h
  simp [Env.stateMap, hd]

theorem View.safe_lastTokenIndex (view : View) :
    Safe known (view.lastTokenIndex position) fun _ => True := by
  rw [View.lastTokenIndex]
  split
  · exact ⟨rfl, fun _ => rfl⟩
  · split
    · trivial
    · exact ⟨rfl, fun _ => rfl⟩

theorem Effect.safe_ofLedger {α : Type} {o : LedgerOutcome α} {cells : Cells} {i : Instruction}
    (hdest : i.dest? = none) (hupdates : ∀ u ∈ o.updates, u.Fits c) :
    Safe known (Effect.ofLedger o position) (i.Foretells known c cells) := by
  rw [Effect.ofLedger]
  cases o.answer with
  | ok _ => exact ⟨hdest, hupdates⟩
  | error e => exact ⟨rfl, fun _ => rfl⟩

/-- Operations on tokens leave the declared slots alone. -/
theorem View.LedgerWrites.fits {view : View} {descriptions : List String} {us : List Update}
    (h : view.LedgerWrites descriptions us) : ∀ u ∈ us, u.Fits c := by
  cases h <;> simp [Update.Fits]

end Reads

section Eval

variable {known : Bool} {c : Contract} {context : Context} {view : View} {cells : Cells}
  {registers : RegisterFile} {position : Nat}

/-- An assertion that passes does nothing. -/
theorem safe_assert {i : Instruction} {p : Prop} [Decidable p] {t : Trap} (hdest : i.dest? = none)
    (ht : t.Allowed known) :
    Safe known (if p then pure .nothing else throw (.trap position t))
      (i.Foretells known c cells) :=
  safe_ite ⟨hdest, by simp⟩ ht

theorem Contract.varType?_eq {index : SlotIndex} {d : VarDecl} (h : c.stateVar? index = some d) :
    c.varType? index = some d.type := by
  rw [varType?, get?_varTable, h, Option.map_some]

theorem Contract.keyType?_eq {index : SlotIndex} {d : MapDecl} (h : c.stateMap? index = some d) :
    c.keyType? index = some d.key := by
  rw [keyType?, get?_mapTable, h, Option.map_some]

theorem Contract.entryType?_eq {index : SlotIndex} {d : MapDecl}
    (h : c.stateMap? index = some d) : c.entryType? index = some d.value := by
  rw [entryType?, get?_mapTable, h, Option.map_some]

theorem Update.fits_var {index : SlotIndex} {d : VarDecl} {v : Value}
    (hd : c.stateVar? index = some d) (hv : v.type = d.type) : (Update.var index v).Fits c := by
  intro d' hd'
  obtain rfl : d = d' := Option.some.inj (hd.symm.trans hd')
  exact hv

theorem Update.fits_entry {index : SlotIndex} {d : MapDecl} {k v : Value}
    (hd : c.stateMap? index = some d) (hk : k.type = d.key) (hv : v.type = d.value) :
    (Update.entry index k v).Fits c := by
  intro d' hd'
  obtain rfl : d = d' := Option.some.inj (hd.symm.trans hd')
  exact ⟨hk, hv⟩

/-- A conversion to a literal type is one that exists, and its result has this type. -/
theorem Instruction.safe_convert {value target dest : Register}
    (htracks : cells.Tracks known registers)
    (hflaws : (convert value target dest).typeFlaws c cells = [])
    (htarget : known = true → (convert value target dest).TargetKnown cells) :
    Safe known ((convert value target dest).eval ⟨c, context⟩ position view registers)
      ((convert value target dest).Foretells known c cells) := by
  simp only [typeFlaws, List.append_eq_nil_iff] at hflaws
  obtain ⟨⟨hvalue, htargetFlaws⟩, hconversion⟩ := hflaws
  refine (htracks.safe_getDataType htargetFlaws).bind fun type htype => ?_
  refine (htracks.safe_get hvalue).bind fun v hv => ?_
  -- only a literal says before the run which type that is
  have hconvertible : known = true → v.type.convertible type = true := by
    intro hknown
    obtain ⟨literal, hliteral⟩ := Option.isSome_iff_exists.mp (htarget hknown)
    rw [hliteral, htype literal hliteral, hv.type?_eq hknown] at hconversion
    exact Flaw.ofConversion_eq_nil_iff.mp hconversion
  rcases v.convert_cases type with ⟨w, hw, rfl⟩ | hrange | ⟨hunsupported, hnot⟩
  · rw [hw]
    refine ⟨rfl, ?_, by simp [literal?]⟩
    cases hliteral : cells.literal? target with
    | some literal => exact .inl (by rw [resultType?, hliteral, htype literal hliteral])
    | none => exact .inr ⟨by simpa [TargetKnown, hliteral] using htarget, hliteral⟩
  · rw [hrange]
    exact ⟨rfl, fun _ => rfl⟩
  · rw [hunsupported]
    exact ⟨rfl, fun hknown => by simp [hconvertible hknown] at hnot⟩

/-- Where the checker finds no flaw, an instruction does what the checker foretells, or it fails
in a way that the checker does not exclude. -/
theorem Instruction.safe_eval (i : Instruction) (htracks : cells.Tracks known registers)
    (hview : view.Typed c) (hbounds : i.InBounds c registers.capacity)
    (hflaws : i.typeFlaws c cells = []) (htarget : known = true → i.TargetKnown cells) :
    Safe known (i.eval ⟨c, context⟩ position view registers) (i.Foretells known c cells) := by
  cases i with
  | loadParty party dest =>
      refine (Context.safe_party party).bind fun a _ => ?_
      exact foretells_result rfl rfl rfl
  | loadTimestamp dest =>
      rw [eval]
      cases context.timestamp with
      | some now => exact foretells_result rfl rfl rfl
      | none => exact ⟨rfl, fun _ => rfl⟩
  | loadLastTokenIndex dest =>
      refine view.safe_lastTokenIndex.bind fun n _ => ?_
      exact foretells_result rfl rfl rfl
  | assertParty party account =>
      refine (htracks.safe_getAccount hflaws).bind fun a _ => ?_
      refine (Context.safe_party party).bind fun expected _ => ?_
      exact safe_assert rfl ⟨rfl, fun _ => rfl⟩
  | assertTrue cond =>
      refine (htracks.safe_reader RegisterFile.reads_getBool hflaws).bind fun b _ => ?_
      exact safe_assert rfl ⟨rfl, fun _ => rfl⟩
  | assertPermitted cond =>
      refine (htracks.safe_reader RegisterFile.reads_getBool hflaws).bind fun b _ => ?_
      exact safe_assert rfl ⟨rfl, fun _ => rfl⟩
  | assertEqual a b =>
      simp only [typeFlaws, List.append_eq_nil_iff] at hflaws
      refine (htracks.safe_get hflaws.1.1).bind fun va _ => ?_
      refine (htracks.safe_get hflaws.1.2).bind fun vb _ => ?_
      exact safe_assert rfl ⟨rfl, fun _ => rfl⟩
  | assertNotExpired now deadline =>
      obtain ⟨hnow, hdeadline⟩ := List.append_eq_nil_iff.mp hflaws
      refine (htracks.safe_reader RegisterFile.reads_getTimestamp hnow).bind fun t _ => ?_
      refine (htracks.safe_reader RegisterFile.reads_getTimestamp hdeadline).bind fun l _ => ?_
      exact safe_assert rfl ⟨rfl, fun _ => rfl⟩
  | constant value dest =>
      refine ⟨rfl, .inl rfl, fun t ht => ?_⟩
      cases value <;> simp_all [literal?]
  | binary op a b dest =>
      refine htracks.safe_pair hflaws fun va vb ha hb htypes => ?_
      refine (Value.safe_binary _ op htypes).bind fun v hv => ?_
      refine ⟨rfl, ?_, by simp [literal?]⟩
      -- one known operand type is enough, since operands of two types do not get here
      rcases ha.type_eq with ha | ⟨hunknown, ha⟩
      · exact .inl (by simp [resultType?, ha, hv.1])
      · rcases hb.type_eq with hb | ⟨-, hb⟩
        · exact .inl (by simp [resultType?, ha, hb, hv.2])
        · exact .inr ⟨hunknown, by simp [resultType?, ha, hb]⟩
  | sqrt a dest =>
      refine (htracks.safe_reader RegisterFile.reads_getBigInteger hflaws).bind fun n _ => ?_
      rw [sqrtInt]
      split
      · exact ⟨rfl, fun _ => rfl⟩
      · exact foretells_result rfl rfl rfl
  | convert value target dest =>
      exact safe_convert htracks hflaws htarget
  | not a dest =>
      refine (htracks.safe_reader RegisterFile.reads_getBool hflaws).bind fun b _ => ?_
      exact foretells_result rfl rfl rfl
  | compare relation a b dest =>
      refine htracks.safe_pair hflaws fun va vb _ _ htypes => ?_
      refine (Value.safe_order _ htypes).bind fun order _ => ?_
      exact foretells_result rfl rfl rfl
  | setVar var value =>
      refine (Env.safe_stateVar (hbounds.stateVar var rfl)).bind fun d hd => ?_
      simp only [typeFlaws, Contract.varType?_eq hd] at hflaws
      refine (htracks.safe_getTyped hflaws).bind fun v hv => ?_
      exact ⟨rfl, by simpa using Update.fits_var hd hv⟩
  | getVar var dest =>
      refine (Env.safe_stateVar (hbounds.stateVar var rfl)).bind fun d hd => ?_
      cases hv : view.var var with
      | some v =>
          have htype := hview.var hd hv
          exact foretells_result rfl (by rw [resultType?, Contract.varType?_eq hd, htype]) rfl
      | none => exact ⟨rfl, fun _ => rfl⟩
  | getVarOrZero var dest =>
      refine (Env.safe_stateVar (hbounds.stateVar var rfl)).bind fun d hd => ?_
      simp only [typeFlaws, Contract.varType?_eq hd, Flaw.ofZero_eq_nil_iff] at hflaws
      refine (Value.safe_orZero (fun v => hview.var hd) hflaws).bind fun v hv => ?_
      exact foretells_result rfl (by rw [resultType?, Contract.varType?_eq hd, hv]) rfl
  | moveVar direction var value =>
      refine (Env.safe_stateVar (hbounds.stateVar var rfl)).bind fun d hd => ?_
      simp only [typeFlaws, Contract.varType?_eq hd, List.append_eq_nil_iff,
        Flaw.ofClass_eq_nil_iff] at hflaws
      obtain ⟨⟨hread, hclass⟩, htypes⟩ := hflaws
      have hvalue : operandFlaws cells value (some d.type) = [] :=
        List.append_eq_nil_iff.mpr ⟨hread, htypes⟩
      refine (htracks.safe_getTyped hvalue).bind fun delta hdelta => ?_
      refine Value.safe_move_stored (fun v => hview.var hd) hclass hdelta fun next hnext => ?_
      exact ⟨rfl, by simpa using Update.fits_var hd hnext⟩
  | setEntry map key value =>
      refine (Env.safe_stateMap (hbounds.stateMap map rfl)).bind fun d hd => ?_
      simp only [typeFlaws, Contract.keyType?_eq hd, Contract.entryType?_eq hd,
        List.append_eq_nil_iff] at hflaws
      refine (htracks.safe_getTyped hflaws.1).bind fun k hk => ?_
      refine (htracks.safe_getTyped hflaws.2).bind fun v hv => ?_
      exact ⟨rfl, by simpa using Update.fits_entry hd hk hv⟩
  | moveEntry direction map key value =>
      refine (Env.safe_stateMap (hbounds.stateMap map rfl)).bind fun d hd => ?_
      simp only [typeFlaws, Contract.keyType?_eq hd, Contract.entryType?_eq hd,
        List.append_eq_nil_iff, Flaw.ofClass_eq_nil_iff] at hflaws
      obtain ⟨⟨⟨hkey, hread⟩, hclass⟩, htypes⟩ := hflaws
      have hvalue : operandFlaws cells value (some d.value) = [] :=
        List.append_eq_nil_iff.mpr ⟨hread, htypes⟩
      refine (htracks.safe_getTyped hkey).bind fun k hk => ?_
      refine (htracks.safe_getTyped hvalue).bind fun delta hdelta => ?_
      have hstored : ∀ v, view.entry map k = some v → v.type = d.value :=
        fun v hv => (hview.entry hd hv).2
      refine Value.safe_move_stored hstored hclass hdelta fun next hnext => ?_
      exact ⟨rfl, by simpa using Update.fits_entry hd hk hnext⟩
  | getEntry map key dest =>
      refine (Env.safe_stateMap (hbounds.stateMap map rfl)).bind fun d hd => ?_
      simp only [typeFlaws, Contract.keyType?_eq hd] at hflaws
      refine (htracks.safe_getTyped hflaws).bind fun k hk => ?_
      cases hv : view.entry map k with
      | some v =>
          have htype := (hview.entry hd hv).2
          exact foretells_result rfl (by rw [resultType?, Contract.entryType?_eq hd, htype]) rfl
      | none => exact ⟨rfl, fun _ => rfl⟩
  | getEntryOrZero map key dest =>
      refine (Env.safe_stateMap (hbounds.stateMap map rfl)).bind fun d hd => ?_
      simp only [typeFlaws, Contract.keyType?_eq hd, Contract.entryType?_eq hd,
        List.append_eq_nil_iff, Flaw.ofZero_eq_nil_iff] at hflaws
      refine (htracks.safe_getTyped hflaws.1).bind fun k hk => ?_
      have hstored : ∀ v, view.entry map k = some v → v.type = d.value :=
        fun v hv => (hview.entry hd hv).2
      refine (Value.safe_orZero hstored hflaws.2).bind fun v hv => ?_
      exact foretells_result rfl (by rw [resultType?, Contract.entryType?_eq hd, hv]) rfl
  | newToken max unit description =>
      simp only [typeFlaws, List.append_eq_nil_iff] at hflaws
      obtain ⟨⟨hmax, hunit⟩, hdescription⟩ := hflaws
      refine (htracks.safe_reader RegisterFile.reads_getAmount hmax).bind fun m _ => ?_
      refine (htracks.safe_reader RegisterFile.reads_getAmount hunit).bind fun u _ => ?_
      refine (htracks.safe_reader RegisterFile.reads_getText hdescription).bind fun t _ => ?_
      exact Effect.safe_ofLedger rfl (view.ledgerWrites_newToken m u t).fits
  | deposit token amount holder =>
      simp only [typeFlaws, List.append_eq_nil_iff] at hflaws
      obtain ⟨⟨htoken, hamount⟩, hholder⟩ := hflaws
      refine (htracks.safe_reader RegisterFile.reads_getInt32 htoken).bind fun n _ => ?_
      refine (htracks.safe_reader RegisterFile.reads_getAmount hamount).bind fun x _ => ?_
      refine (htracks.safe_getAccount hholder).bind fun a _ => ?_
      exact Effect.safe_ofLedger rfl (view.ledgerWrites_deposit n.toInt a x).fits
  | transfer source token amount target =>
      simp only [typeFlaws, List.append_eq_nil_iff] at hflaws
      obtain ⟨⟨⟨hsource, htoken⟩, hamount⟩, htarget⟩ := hflaws
      refine (htracks.safe_getAccount hsource).bind fun a _ => ?_
      refine (htracks.safe_reader RegisterFile.reads_getInt32 htoken).bind fun n _ => ?_
      refine (htracks.safe_reader RegisterFile.reads_getAmount hamount).bind fun x _ => ?_
      refine (htracks.safe_getAccount htarget).bind fun b _ => ?_
      exact Effect.safe_ofLedger rfl (view.ledgerWrites_transfer n.toInt a b x).fits
  | balance token holder dest =>
      simp only [typeFlaws, List.append_eq_nil_iff] at hflaws
      obtain ⟨htoken, hholder⟩ := hflaws
      refine (htracks.safe_reader RegisterFile.reads_getInt32 htoken).bind fun n _ => ?_
      refine (htracks.safe_getAccount hholder).bind fun a _ => ?_
      cases view.balanceOf n.toInt a with
      | ok x => exact foretells_result rfl rfl rfl
      | error e => exact ⟨rfl, fun _ => rfl⟩

end Eval

/-! ### One step -/

namespace Cells

variable {known : Bool} {cells : Cells} {registers : RegisterFile} {dest : Register}
  {cell : Cell} {v : Value}

theorem type?_insert (cells : Cells) (dest r : Register) (cell : Cell) :
    type? (cells.insert dest cell) r = if r = dest then cell.type else cells.type? r := by
  rw [type?, OrderedMap.get?_insert]
  by_cases h : r = dest <;> simp [h, type?]

theorem literal?_insert (cells : Cells) (dest r : Register) (cell : Cell) :
    literal? (cells.insert dest cell) r = if r = dest then cell.literal else cells.literal? r := by
  rw [literal?, OrderedMap.get?_insert]
  by_cases h : r = dest <;> simp [h, literal?]

theorem holds_insert_self (htype : cell.type = some v.type ∨ known = false ∧ cell.type = none)
    (hliteral : ∀ t, cell.literal = some t → v = .dataType t) :
    Holds known (cells.insert dest cell) dest v := by
  refine ⟨?_, ?_⟩
  · simpa [type?_insert] using htype
  · simpa [literal?_insert] using hliteral

theorem Holds.insert_of_ne {r : Register} (h : cells.Holds known r v) (hr : r ≠ dest)
    (cell : Cell) : Holds known (cells.insert dest cell) r v := by
  refine ⟨?_, ?_⟩
  · simpa [type?_insert, hr] using h.type_eq
  · simpa [literal?_insert, hr] using h.literal_eq

theorem Tracks.insert (h : cells.Tracks known registers) (hdest : dest.toNat < registers.capacity)
    (htype : cell.type = some v.type ∨ known = false ∧ cell.type = none)
    (hliteral : ∀ t, cell.literal = some t → v = .dataType t) :
    Tracks known (cells.insert dest cell) (registers.write dest v) := by
  intro r hr
  rw [RegisterFile.get?_write hdest]
  by_cases hd : r = dest
  · subst hd
    exact ⟨v, if_pos rfl, holds_insert_self htype hliteral⟩
  · have hold : cells.contains r = true := by
      simpa [OrderedMap.contains, OrderedMap.get?_insert, hd] using hr
    obtain ⟨w, hw, hholds⟩ := h r hold
    exact ⟨w, (if_neg hd).trans hw, hholds.insert_of_ne hd cell⟩

end Cells

namespace Machine

variable {known : Bool} {c : Contract} {context : Context} {capacity : Nat} {cells : Cells}
  {m : Machine} {position : Nat}

/-- The machine is as the checker takes it to be. -/
structure Agrees (known : Bool) (c : Contract) (capacity : Nat) (cells : Cells) (m : Machine) :
    Prop where
  capacity_eq : m.registers.capacity = capacity
  registers : cells.Tracks known m.registers
  view : m.overlay.view.Typed c

theorem Agrees.safe_step (h : m.Agrees known c capacity cells) {i : Instruction}
    (hbounds : i.InBounds c capacity) (hflaws : i.typeFlaws c cells = [])
    (htarget : known = true → i.TargetKnown cells) :
    Safe known (m.step ⟨c, context⟩ position i)
      (Agrees known c capacity (i.typesAfter c cells)) := by
  obtain ⟨rfl, hregisters, hview⟩ := h
  refine (i.safe_eval hregisters hview hbounds hflaws htarget).bind fun effect heffect => ?_
  cases effect with
  | result dest v =>
      obtain ⟨hdest, htype, hliteral⟩ := heffect
      have hroom : dest.toNat < m.registers.capacity :=
        hbounds.registers dest (by simp [hdest])
      have hset : m.registers.set dest v position = .ok (m.registers.write dest v) :=
        RegisterFile.set_eq_ok_iff.mpr ⟨hroom, rfl⟩
      simp only [hset, Instruction.typesAfter, hdest]
      exact ⟨rfl, hregisters.insert hroom htype hliteral, hview⟩
  | updates us =>
      obtain ⟨hdest, hus⟩ := heffect
      simp only [Instruction.typesAfter, hdest]
      refine ⟨rfl, hregisters, ?_⟩
      rw [Overlay.view_record]
      exact hview.foldl_update hus

end Machine

end ContractMachine
