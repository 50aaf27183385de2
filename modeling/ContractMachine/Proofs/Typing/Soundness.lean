import ContractMachine.Proofs.Calls
import ContractMachine.Proofs.Typing.Instructions

/-! Soundness of the checks. What the checker assumes holds at every instruction of a body; so a
call of an accepted contract never fails for a reason that the checks look for. -/

namespace ContractMachine

/-! ### Conversions to literal types -/

namespace Instruction

/-- The last of these instructions to write the register; the latest comes first. -/
def lastWriter? (earlier : List Instruction) (r : Register) : Option Instruction :=
  earlier.find? fun i => i.dest? == some r

/-- If this is a conversion, then the last write to its target register was a constant that is
a type. -/
def targetsLiteral (earlier : List Instruction) : Instruction → Bool
  | convert _ target _ => (lastWriter? earlier target).any fun w => w.literal?.isSome
  | _ => true

/-- Every conversion goes to a literal type; `earlier` has run before. -/
def convertToLiterals : (earlier : List Instruction) → List Instruction → Bool
  | _, [] => true
  | earlier, i :: rest => i.targetsLiteral earlier && convertToLiterals (i :: earlier) rest

end Instruction

/-- The literals that the checker knows are those that were written last. -/
def Cells.Mirrors (cells : Cells) (earlier : List Instruction) : Prop :=
  ∀ r w, Instruction.lastWriter? earlier r = some w → cells.literal? r = w.literal?

namespace Cells.Mirrors

variable {c : Contract} {cells : Cells} {earlier : List Instruction}

theorem typesAfter (h : cells.Mirrors earlier) (i : Instruction) :
    (i.typesAfter c cells).Mirrors (i :: earlier) := by
  intro r w hw
  by_cases hdest : i.dest? = some r
  · obtain rfl : i = w := by simpa [Instruction.lastWriter?, hdest] using hw
    simp [Instruction.typesAfter, hdest, literal?_insert]
  · have hearlier : Instruction.lastWriter? earlier r = some w := by
      rwa [Instruction.lastWriter?, List.find?_cons_of_neg (by simpa using hdest)] at hw
    rw [← h r w hearlier, Instruction.typesAfter]
    cases hi : i.dest? with
    | none => rfl
    | some dest =>
        have hne : r ≠ dest := by
          rintro rfl
          exact hdest hi
        simp [literal?_insert, hne]

theorem targetKnown (h : cells.Mirrors earlier) {i : Instruction}
    (htargets : i.targetsLiteral earlier = true) : i.TargetKnown cells := by
  cases i with
  | convert value target dest =>
      obtain ⟨w, hw, hliteral⟩ := (Option.any_eq_true _ _).mp htargets
      rw [Instruction.TargetKnown, h target w hw]
      exact hliteral
  | _ => trivial

end Cells.Mirrors

/-! ### Whole bodies -/

theorem Machine.Agrees.allowed_of_runFrom {known : Bool} {c : Contract} {context : Context}
    {capacity : Nat} {cells : Cells} {m : Machine} {earlier code : List Instruction}
    {start position : Nat} {cause : Trap} (h : m.Agrees known c capacity cells)
    (hmirrors : cells.Mirrors earlier) (hbounds : ∀ i ∈ code, i.InBounds c capacity)
    (hflaws : c.typeFlawsFrom start cells code = [])
    (hliterals : known = true → Instruction.convertToLiterals earlier code = true)
    (hrun : runFrom ⟨c, context⟩ start code m = .error (.trap position cause)) :
    cause.Allowed known := by
  induction code generalizing start cells m earlier with
  | nil => cases hrun
  | cons i rest ih =>
      obtain ⟨hi, hrest⟩ := List.append_eq_nil_iff.mp hflaws
      have hsplit : known = true → i.targetsLiteral earlier = true ∧
          Instruction.convertToLiterals (i :: earlier) rest = true := by
        simpa [Instruction.convertToLiterals] using hliterals
      have hstep : Safe known (m.step ⟨c, context⟩ start i)
          (Agrees known c capacity (i.typesAfter c cells)) :=
        h.safe_step (hbounds i List.mem_cons_self) (List.map_eq_nil_iff.mp hi)
          fun hknown => hmirrors.targetKnown (hsplit hknown).1
      rw [runFrom] at hrun
      cases hresult : m.step ⟨c, context⟩ start i with
      | error e =>
          rw [hresult] at hstep hrun
          obtain rfl := Except.error.inj hrun
          exact hstep
      | ok next =>
          rw [hresult] at hstep hrun
          exact ih hstep (hmirrors.typesAfter i)
            (fun j hj => hbounds j (List.mem_cons_of_mem i hj)) hrest
            (fun hknown => (hsplit hknown).2) hrun

theorem Cells.get?_ofParams (params : List DataType) (r : Register) :
    (ofParams params).get? r = params[r.toNat]?.map fun type => ⟨some type, none⟩ :=
  OrderedMap.get?_numbered (fun type => (⟨some type, none⟩ : Cell)) params r

theorem Cells.holds_ofParams {known : Bool} {args : List Value} {r : Register} {v : Value}
    (hv : args[r.toNat]? = some v) :
    (ofParams (args.map Value.type)).contains r = true ∧
      (ofParams (args.map Value.type)).Holds known r v := by
  have hcell := get?_ofParams (args.map Value.type) r
  rw [List.getElem?_map, hv] at hcell
  refine ⟨?_, .inl ?_, ?_⟩
  · simp [OrderedMap.contains, hcell]
  · simp [type?, hcell]
  · simp [literal?, hcell]

/-- Arguments of the declared types agree with what the checker assumes of the parameters. -/
theorem Cells.tracks_ofParams {known : Bool} {capacity : Nat} {args : List Value}
    (hcapacity : args.length ≤ capacity) :
    (ofParams (args.map Value.type)).Tracks known (.ofValues capacity args) := by
  intro r hr
  cases hv : args[r.toNat]? with
  | none => simp [OrderedMap.contains, get?_ofParams, hv] at hr
  | some v =>
      have hroom : r.toNat < capacity := by
        have hlt : r.toNat < args.length := (List.getElem?_eq_some_iff.mp hv).1
        omega
      have hget := RegisterFile.get?_ofValues capacity args r
      exact ⟨v, RegisterFile.get?_eq_some_iff.mpr ⟨hroom, hget.trans hv⟩, (holds_ofParams hv).2⟩

/-! ### Calls of accepted contracts -/

theorem checkArguments_ne_trap (index : Nat) (types : List DataType) (args : List Value)
    (position : Nat) (cause : Trap) :
    checkArguments index types args ≠ .error (.trap position cause) := by
  induction types generalizing index args with
  | nil => simp [checkArguments]
  | cons type types ih =>
      cases args with
      | nil => simp [checkArguments]
      | cons arg args =>
          intro h
          rw [checkArguments] at h
          cases hfirst : checkArgument index type arg with
          | ok _ =>
              rw [hfirst] at h
              exact ih (index + 1) args h
          | error e =>
              rw [hfirst] at h
              obtain rfl := Except.error.inj h
              rw [checkArgument] at hfirst
              split at hfirst
              · split at hfirst
                · split at hfirst <;> cases hfirst
                · cases hfirst
              · cases hfirst

/-- Where there is a register for each parameter, a call starts with its arguments in place or it
is refused for them. -/
theorem Function.run_eq_trap {f : Function} {env : Env} {capacity : Nat} {base : View}
    {args : List Value} {position : Nat} {cause : Trap}
    (hparams : f.params.length ≤ min capacity maxByteCount)
    (hrun : f.run env capacity base args = .error (.trap position cause)) :
    f.Accepts args ∧ Machine.runFrom env 0 f.code ⟨.ofValues capacity args, { base }⟩ =
      .error (.trap position cause) := by
  have hroom : f.params.length ≤ capacity ∧ f.params.length ≤ 255 := Nat.le_min.mp hparams
  rw [run, seed] at hrun
  by_cases hlength : args.length = f.params.length
  · have hseed : RegisterFile.start { capacity } args = .ok (.ofValues capacity args) :=
      seedFrom_ofValues capacity [] args (by simp; omega) (by simp; omega)
    rw [if_pos hlength, hseed] at hrun
    cases hargs : checkArguments 0 f.params args with
    | ok _ =>
        rw [hargs] at hrun
        exact ⟨(checkArguments_eq_ok_iff 0 f.params args hlength).mp hargs, hrun⟩
    | error e =>
        rw [hargs] at hrun
        obtain rfl := Except.error.inj hrun
        exact absurd hargs (checkArguments_ne_trap 0 f.params args position cause)
  · rw [if_neg hlength] at hrun
    cases hrun

/-- A call of an accepted contract on a state with the declared types never fails because a
register or slot is not there or a slot has no zero. Where all conversions go to literal types, it
does not fail because a value has a wrong type either. -/
theorem ValidContract.checked_calls_avoid_traps {c : Contract} {l : Limits} {v : ValidContract}
    (hcheck : check c l = .ok v) {f : Function} (hf : f ∈ c.triggers ++ c.functions)
    (context : Context) {base : View} (hbase : base.Typed c) (args : List Value) {position : Nat}
    {cause : Trap}
    (hrun : f.run ⟨c, context⟩ l.registerCapacity base args = .error (.trap position cause)) :
    cause.isPlacement = false ∧
      (Instruction.convertToLiterals [] f.code = true → cause.isTyping = false) := by
  obtain ⟨hdefects, -, -⟩ := check_eq_ok_iff.mp hcheck
  obtain ⟨hlimits, -, -, hbounds, htypes, -⟩ := Contract.defects_eq_nil_iff.mp hdefects
  have hsize := (Contract.limitDefects_eq_nil_iff.mp hlimits).bodies f hf
  have hin := (Contract.boundsDefects_eq_nil_iff.mp hbounds f hf).2
  have hflaws := Contract.typeDefects_eq_nil_iff.mp htypes f hf
  obtain ⟨⟨hargs, -⟩, hbody⟩ := Function.run_eq_trap hsize.params hrun
  have hcount : args.length ≤ l.registerCapacity := by
    have hle := (Nat.le_min.mp hsize.params).1
    rwa [← hargs, List.length_map] at hle
  -- types are all known exactly where every conversion goes to a literal
  have hstart : Machine.Agrees (Instruction.convertToLiterals [] f.code) c l.registerCapacity
      (.ofParams f.params) ⟨.ofValues l.registerCapacity args, { base }⟩ := by
    rw [← hargs]
    exact ⟨rfl, Cells.tracks_ofParams hcount, hbase⟩
  have hmirrors : (Cells.ofParams f.params).Mirrors [] := by
    intro r w hw
    cases hw
  exact hstart.allowed_of_runFrom hmirrors hin hflaws id hbody

/-- A fund, and the savings of one account. -/
def Savings.started (saver : Address) : Store where
  vars := .ofList [(1, .amount 7)]
  entries := .ofList [(⟨0, .address saver⟩, .amount 2000)]

theorem Savings.typed_started (saver : Address) : (started saver).view.Typed contract := by
  constructor
  · intro index d v hd hv
    have hmem : (index, v) ∈ [((1 : SlotIndex), Value.amount 7)] :=
      OrderedMap.get?_eq_some_iff.mp hv
    obtain ⟨rfl, rfl⟩ := Prod.mk.inj (List.mem_singleton.mp hmem)
    cases hd
    rfl
  · intro index d k v hd hv
    have hmem : (⟨index, k⟩, v) ∈ [(EntryKey.mk 0 (.address saver), Value.amount 2000)] :=
      OrderedMap.get?_eq_some_iff.mp hv
    obtain ⟨hkey, rfl⟩ := Prod.mk.inj (List.mem_singleton.mp hmem)
    obtain ⟨rfl, rfl⟩ := EntryKey.mk.inj hkey
    cases hd
    exact ⟨rfl, rfl⟩

/-- A charge of twice the savings converts its operands and then fails for want of savings alone. -/
theorem ValidContract.overcharge_avoids_traps :
    let saver : Address := ⟨List.replicate 26 1, rfl⟩
    let context : Context := { caller := some saver }
    Savings.charge.run ⟨Savings.contract, context⟩ 64 (Savings.started saver).view [.amount 2000] =
        .error (.trap 10 .underflow) ∧
      Instruction.convertToLiterals [] Savings.charge.code = true ∧
      Trap.underflow.isPlacement = false ∧ Trap.underflow.isTyping = false := by
  intro saver context
  have hf : Savings.charge ∈ Savings.contract.triggers ++ Savings.contract.functions := by decide
  have hrun : Savings.charge.run ⟨Savings.contract, context⟩ 64 (Savings.started saver).view
      [.amount 2000] = .error (.trap 10 .underflow) := by rfl
  have hliterals : Instruction.convertToLiterals [] Savings.charge.code = true := by decide
  obtain ⟨hplacement, htyping⟩ := checked_calls_avoid_traps Savings.check_contract hf context
    (Savings.typed_started saver) _ hrun
  exact ⟨hrun, hliterals, hplacement, htyping hliterals⟩

end ContractMachine
