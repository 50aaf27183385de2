import ContractMachine.Proofs.Effects
import ContractMachine.Proofs.Failures
import ContractMachine.Proofs.OrderedMap

/-! Symbolic execution. `Succeeds` and `Completes` say that a computation ends well in a state
with a property; one rule for each instruction turns the run of a body into conditions on its
operands and the run of the rest. Positions matter only to errors, so the rules speak of the
position 0 throughout. -/

namespace ContractMachine

/-! ### Computations that succeed -/

/-- The computation ends well, with a result that has the property. -/
def Succeeds {ε α : Type} (x : Except ε α) (P : α → Prop) : Prop :=
  ∃ a, x = .ok a ∧ P a

section Succeeds

variable {ε α β : Type}

/-- Simplification goes into the computation first; what follows it waits for its result. -/
@[congr] theorem succeeds_congr {x y : Except ε α} {P : α → Prop} (h : x = y) :
    Succeeds x P = Succeeds y P := by
  rw [h]

@[simp] theorem succeeds_ok (a : α) (P : α → Prop) : Succeeds (.ok a : Except ε α) P = P a := by
  simp [Succeeds]

@[simp] theorem succeeds_pure (a : α) (P : α → Prop) :
    Succeeds (pure a : Except ε α) P = P a :=
  succeeds_ok a P

@[simp] theorem succeeds_error (e : ε) (P : α → Prop) :
    Succeeds (.error e : Except ε α) P = False := by
  simp [Succeeds]

@[simp] theorem succeeds_throw (e : ε) (P : α → Prop) :
    Succeeds (throw e : Except ε α) P = False :=
  succeeds_error e P

@[simp] theorem succeeds_bind (x : Except ε α) (f : α → Except ε β) (P : β → Prop) :
    Succeeds (x >>= f) P = Succeeds x fun a => Succeeds (f a) P := by
  cases x with
  | ok a => simp [bind, Except.bind]
  | error e => simp [bind, Except.bind]

@[simp] theorem succeeds_map (f : α → β) (x : Except ε α) (P : β → Prop) :
    Succeeds (f <$> x) P = Succeeds x fun a => P (f a) := by
  cases x with
  | ok a => simp [Functor.map, Except.map]
  | error e => simp [Functor.map, Except.map]

@[simp] theorem succeeds_ite (c : Prop) [Decidable c] (x : Except ε α) (e : ε) (P : α → Prop) :
    Succeeds (if c then x else .error e) P = (c ∧ Succeeds x P) := by
  by_cases h : c <;> simp [h]

@[simp] theorem succeeds_ite_throw (c : Prop) [Decidable c] (x : Except ε α) (e : ε)
    (P : α → Prop) : Succeeds (if c then x else throw e) P = (c ∧ Succeeds x P) :=
  succeeds_ite c x e P

@[simp] theorem succeeds_lift (op : Opcode) (position : Nat) (x : Except Fault α)
    (P : α → Prop) : Succeeds (Fault.lift op position x) P = Succeeds x P := by
  cases x <;> simp [Fault.lift]

/-- The value is there and has the property. -/
def Present (o : Option α) (P : α → Prop) : Prop :=
  ∃ a, o = some a ∧ P a

@[congr] theorem present_congr {o o' : Option α} {P : α → Prop} (h : o = o') :
    Present o P = Present o' P := by
  rw [h]

@[simp] theorem present_some (a : α) (P : α → Prop) : Present (some a) P = P a := by
  simp [Present]

@[simp] theorem present_none (P : α → Prop) : Present (none : Option α) P = False := by
  simp [Present]

end Succeeds

/-- A type with a zero has a value to read in every slot. -/
theorem Value.orZero_eq_ok {type : DataType} {zero : Value} (h : zero? type = some zero)
    (stored : Option Value) (position : Nat) :
    orZero stored type position = .ok (stored.getD zero) := by
  cases stored with
  | none => simp [orZero, h]
  | some v => rfl

/-! ### Registers that hold a list of values -/

namespace RegisterFile

/-- The first registers hold these values, in order; the others are unset. -/
def ofValues (capacity : Nat) (values : List Value) : RegisterFile where
  capacity
  cells := .numbered id values

/-- Every register reads as its place in the list. -/
theorem get?_ofValues (capacity : Nat) (values : List Value) (i : Register) :
    (ofValues capacity values).cells.get? i = values[i.toNat]? := by
  rw [ofValues, OrderedMap.get?_numbered, Option.map_id, id]

@[simp] theorem succeeds_get_ofValues (capacity : Nat) (values : List Value) (i : Register)
    (position : Nat) (P : Value → Prop) :
    Succeeds ((ofValues capacity values).get i position) P =
      (i.toNat < capacity ∧ Present values[i.toNat]? P) := by
  have hcapacity : (ofValues capacity values).capacity = capacity := rfl
  rw [get, get?_ofValues, hcapacity, succeeds_ite]
  cases values[i.toNat]? <;> simp

theorem set_ofValues (capacity : Nat) (values : List Value) (dest : Register) (v : Value)
    (position : Nat) (hdest : values.length = dest.toNat) (hcapacity : dest.toNat < capacity) :
    (ofValues capacity values).set dest v position = .ok (ofValues capacity (values ++ [v])) := by
  have hnext : dest = UInt8.ofNat values.length := by rw [hdest, UInt8.ofNat_toNat]
  have hlt : values.length < 256 := hdest ▸ dest.toNat_lt
  have hroom : dest.toNat < (ofValues capacity values).capacity := hcapacity
  rw [set, if_pos hroom, hnext]
  simp only [ofValues, OrderedMap.numbered_concat id values v hlt, id]

end RegisterFile

/-! ### Bodies that complete -/

namespace Machine

/-- Put a value into a register. -/
def assign (m : Machine) (dest : Register) (v : Value) : Except ExecError Machine := do
  let registers ← m.registers.set dest v 0
  return { m with registers }

/-- The code runs to its end, in a state with the property. -/
def Completes (env : Env) (code : List Instruction) (m : Machine) (P : Machine → Prop) : Prop :=
  Succeeds (runFrom env 0 code m) P

variable {env : Env} {rest : List Instruction} {m : Machine} {P : Machine → Prop}

theorem assign_ofValues (capacity : Nat) (values : List Value) (o : Overlay) (dest : Register)
    (v : Value) (hdest : values.length = dest.toNat) (hcapacity : dest.toNat < capacity) :
    (Machine.mk (.ofValues capacity values) o).assign dest v =
      .ok ⟨.ofValues capacity (values ++ [v]), o⟩ := by
  have hset := RegisterFile.set_ofValues capacity values dest v 0 hdest hcapacity
  simp [assign, hset, bind, Except.bind, pure, Except.pure]

@[congr] theorem completes_congr {code : List Instruction} {m m' : Machine} (h : m = m') :
    Completes env code m P = Completes env code m' P := by
  rw [h]

/-- Where an instruction stands matters only to its errors. -/
theorem succeeds_step (i : Instruction) (position other : Nat) :
    Succeeds (m.step env position i) P = Succeeds (m.step env other i) P := by
  simp only [Succeeds, step_eq_ok_iff]

theorem succeeds_runFrom_cons (i : Instruction) (position : Nat) :
    Succeeds (runFrom env position (i :: rest) m) P =
      Succeeds (m.step env position i) fun next =>
        Succeeds (runFrom env (position + 1) rest next) P := by
  rw [runFrom]
  cases m.step env position i <;> simp

/-- Where a body stands matters only to its errors. -/
theorem succeeds_runFrom (env : Env) (code : List Instruction) (m : Machine)
    (P : Machine → Prop) (position : Nat) :
    Succeeds (runFrom env position code m) P = Completes env code m P := by
  unfold Completes
  generalize 0 = start
  induction code generalizing position start m with
  | nil => rfl
  | cons i rest ih =>
      rw [succeeds_runFrom_cons, succeeds_runFrom_cons, succeeds_step i position start]
      congr 1
      funext next
      exact ih next (position + 1) (start + 1)

@[simp] theorem completes_nil : Completes env [] m P = P m :=
  succeeds_ok m P

theorem completes_cons (i : Instruction) :
    Completes env (i :: rest) m P =
      Succeeds (m.step env 0 i) fun next => Completes env rest next P := by
  rw [Completes, succeeds_runFrom_cons]
  congr 1
  funext next
  exact succeeds_runFrom env rest next P 1

/-- One part of a body runs after the other. -/
theorem completes_append (first : List Instruction) :
    Completes env (first ++ rest) m P =
      Completes env first m fun next => Completes env rest next P := by
  induction first generalizing m with
  | nil => simp
  | cons i first ih => simp only [List.cons_append, completes_cons, ih]

theorem runFrom_append {first : List Instruction} {position : Nat} {next : Machine}
    (h : runFrom env position first m = .ok next) :
    runFrom env position (first ++ rest) m = runFrom env (position + first.length) rest next := by
  induction first generalizing position m with
  | nil =>
      obtain rfl : m = next := Except.ok.inj h
      rfl
  | cons i first ih =>
      rw [runFrom] at h
      cases hstep : m.step env position i with
      | error e => simp [hstep] at h
      | ok middle =>
          rw [hstep] at h
          have hposition : position + (first.length + 1) = position + 1 + first.length := by omega
          rw [List.cons_append, runFrom, hstep, List.length_cons, hposition]
          exact ih h

/-- A body that is stopped has run up to the instruction that fails, and its error is the one of
that instruction. -/
theorem exists_stop_of_runFrom {code : List Instruction} {start : Nat} {e : ExecError}
    (h : runFrom env start code m = .error e) :
    ∃ first i after next, code = first ++ i :: after ∧ runFrom env start first m = .ok next ∧
      next.step env (start + first.length) i = .error e := by
  induction code generalizing start m with
  | nil => cases h
  | cons i after ih =>
      rw [runFrom] at h
      cases hstep : m.step env start i with
      | error e' =>
          rw [hstep] at h
          obtain rfl : e' = e := Except.error.inj h
          exact ⟨[], i, after, m, rfl, rfl, hstep⟩
      | ok middle =>
          rw [hstep] at h
          obtain ⟨first, j, after', next, rfl, hfirst, hstop⟩ := ih h
          refine ⟨i :: first, j, after', next, rfl, ?_, ?_⟩
          · rw [runFrom, hstep]
            exact hfirst
          · rwa [List.length_cons, Nat.add_comm first.length, ← Nat.add_assoc]

/-- The position that a trap names is the one of the instruction that raised it. -/
theorem exists_stop_of_trap {code : List Instruction} {start position : Nat} {cause : Trap}
    (h : runFrom env start code m = .error (.trap position cause)) :
    ∃ first i after next, code = first ++ i :: after ∧ position = start + first.length ∧
      runFrom env start first m = .ok next ∧
      next.step env position i = .error (.trap position cause) := by
  obtain ⟨first, i, after, next, hcode, hfirst, hstop⟩ := exists_stop_of_runFrom h
  obtain ⟨cause', he⟩ := failsAt_step env _ next i _ hstop
  obtain ⟨rfl, -⟩ := ExecError.trap.inj he
  exact ⟨first, i, after, next, hcode, rfl, hfirst, hstop⟩

/-- Once an instruction fails, what would have come after does not matter. -/
theorem runFrom_of_stop {first : List Instruction} {i : Instruction} {start : Nat} {next : Machine}
    {e : ExecError} (hfirst : runFrom env start first m = .ok next)
    (hstop : next.step env (start + first.length) i = .error e) :
    runFrom env start (first ++ i :: rest) m = .error e := by
  rw [runFrom_append hfirst, runFrom, hstop]

/-- A body that is stopped at an assertion has come to it, and what it asserts does not hold. -/
theorem completes_of_failed_assertion {code : List Instruction} {position : Nat} {cause : Trap}
    {cond : Register} (h : runFrom env 0 code m = .error (.trap position cause))
    (hcode : code[position]? = some (.assertTrue cond)) :
    Completes env (code.take position) m fun next =>
      ¬Succeeds (next.registers.getBool cond 0) (· = true) := by
  obtain ⟨first, i, after, next, rfl, rfl, hfirst, hstop⟩ := exists_stop_of_trap h
  obtain rfl : i = .assertTrue cond := by simpa using hcode
  rw [Nat.zero_add, List.take_left]
  refine ⟨next, hfirst, ?_⟩
  rintro ⟨b, hcond, rfl⟩
  have hheld : (Instruction.assertTrue cond).Yields env next.overlay.view next.registers .nothing :=
    .assertTrue (RegisterFile.getBool_eq_ok_iff.mp hcond)
  rw [step_eq_ok_iff.mpr (.updates hheld)] at hstop
  cases hstop

/-- A body is stopped where it asks for a permission that it does not have. -/
theorem exists_trap_of_not_permitted {first : List Instruction} {cond : Register}
    (h : Completes env first m fun next => Succeeds (next.registers.getBool cond 0) (· = false)) :
    ∃ position, runFrom env 0 (first ++ .assertPermitted cond :: rest) m =
      .error (.trap position .notPermitted) := by
  obtain ⟨next, hfirst, b, hcond, rfl⟩ := h
  have hdenied : next.registers.getBool cond (0 + first.length) = .ok false :=
    RegisterFile.getBool_eq_ok_iff.mpr (RegisterFile.getBool_eq_ok_iff.mp hcond)
  have hstep : next.step env (0 + first.length) (.assertPermitted cond) =
      .error (.trap (0 + first.length) .notPermitted) := by
    simp only [step, Instruction.eval, hdenied]
    rfl
  exact ⟨_, runFrom_of_stop hfirst hstep⟩

/-! ### One rule for each instruction -/

attribute [local simp] Instruction.eval

@[simp] theorem completes_loadParty (party : Party) (dest : Register) :
    Completes env (.loadParty party dest :: rest) m P =
      ∃ a, env.context.party? party = some a ∧
        Succeeds (m.assign dest (.address a)) fun next => Completes env rest next P := by
  cases h : env.context.party? party <;>
    simp [completes_cons, step, assign, Context.party, h]

@[simp] theorem completes_loadTimestamp (dest : Register) :
    Completes env (.loadTimestamp dest :: rest) m P =
      ∃ now, env.context.timestamp = some now ∧
        Succeeds (m.assign dest (.timestamp now)) fun next => Completes env rest next P := by
  cases h : env.context.timestamp <;>
    simp [completes_cons, step, assign, h]

@[simp] theorem completes_assertParty (party : Party) (account : Register) :
    Completes env (.assertParty party account :: rest) m P =
      Succeeds (m.registers.getAccount (Instruction.assertParty party account).opcode account 0)
        fun a => env.context.party? party = some a ∧ Completes env rest m P := by
  simp only [completes_cons, step, Instruction.eval, succeeds_bind]
  congr 1
  funext a
  cases h : env.context.party? party with
  | none => simp [Context.party, h]
  | some b => simp [Context.party, h, eq_comm, Effect.nothing, Overlay.record]

@[simp] theorem completes_assertTrue (cond : Register) :
    Completes env (.assertTrue cond :: rest) m P =
      Succeeds (m.registers.getBool cond 0) fun b => b = true ∧ Completes env rest m P := by
  simp [completes_cons, step, Effect.nothing, Overlay.record]

@[simp] theorem completes_assertPermitted (cond : Register) :
    Completes env (.assertPermitted cond :: rest) m P =
      Succeeds (m.registers.getBool cond 0) fun b => b = true ∧ Completes env rest m P := by
  simp [completes_cons, step, Effect.nothing, Overlay.record]

@[simp] theorem completes_assertEqual (a b : Register) :
    Completes env (.assertEqual a b :: rest) m P =
      Succeeds (m.registers.get a 0) fun va => Succeeds (m.registers.get b 0) fun vb =>
        va = vb ∧ Completes env rest m P := by
  simp [completes_cons, step, Effect.nothing, Overlay.record]

@[simp] theorem completes_assertNotExpired (now deadline : Register) :
    Completes env (.assertNotExpired now deadline :: rest) m P =
      Succeeds (m.registers.getTimestamp now 0) fun t =>
        Succeeds (m.registers.getTimestamp deadline 0) fun limit =>
          t.toInt ≤ limit.toInt ∧ Completes env rest m P := by
  simp [completes_cons, step, Effect.nothing, Overlay.record]

@[simp] theorem completes_constant (value : Value) (dest : Register) :
    Completes env (.constant value dest :: rest) m P =
      Succeeds (m.assign dest value) fun next => Completes env rest next P := by
  simp [completes_cons, step, assign]

@[simp] theorem completes_binary (op : BinaryOp) (a b dest : Register) :
    Completes env (.binary op a b dest :: rest) m P =
      Succeeds (m.registers.get a 0) fun va => Succeeds (m.registers.get b 0) fun vb =>
        Succeeds (Value.binary op va vb) fun v =>
          Succeeds (m.assign dest v) fun next => Completes env rest next P := by
  simp [completes_cons, step, assign]

@[simp] theorem completes_sqrt (a dest : Register) :
    Completes env (.sqrt a dest :: rest) m P =
      Succeeds (m.registers.getBigInteger a 0) fun n => Succeeds (sqrtInt n) fun root =>
        Succeeds (m.assign dest (.bigInteger root)) fun next => Completes env rest next P := by
  simp [completes_cons, step, assign]

@[simp] theorem completes_convert (value target dest : Register) :
    Completes env (.convert value target dest :: rest) m P =
      Succeeds (m.registers.getDataType target 0) fun type =>
        Succeeds (m.registers.get value 0) fun v => Succeeds (v.convert type) fun w =>
          Succeeds (m.assign dest w) fun next => Completes env rest next P := by
  simp only [completes_cons, step, assign, Instruction.eval, succeeds_bind]
  congr 1
  funext type
  congr 1
  funext v
  cases v.convert type <;> simp

@[simp] theorem completes_not (a dest : Register) :
    Completes env (.not a dest :: rest) m P =
      Succeeds (m.registers.getBool a 0) fun b =>
        Succeeds (m.assign dest (.boolean (!b))) fun next => Completes env rest next P := by
  simp [completes_cons, step, assign]

@[simp] theorem completes_compare (relation : Relation) (a b dest : Register) :
    Completes env (.compare relation a b dest :: rest) m P =
      Succeeds (m.registers.get a 0) fun va => Succeeds (m.registers.get b 0) fun vb =>
        Succeeds (Value.order va vb) fun order =>
          Succeeds (m.assign dest (.boolean (relation.test order))) fun next =>
            Completes env rest next P := by
  simp [completes_cons, step, assign]

@[simp] theorem completes_setVar (var : SlotIndex) (value : Register) :
    Completes env (.setVar var value :: rest) m P =
      Succeeds (env.stateVar var 0) fun slot => Succeeds (m.registers.getTyped slot.type value 0)
        fun v => Completes env rest { m with overlay := m.overlay.record [.var var v] } P := by
  simp [completes_cons, step]

@[simp] theorem completes_getVar (var : SlotIndex) (dest : Register) :
    Completes env (.getVar var dest :: rest) m P =
      Succeeds (env.stateVar var 0) fun _ => Present (m.overlay.view.var var) fun v =>
        Succeeds (m.assign dest v) fun next => Completes env rest next P := by
  simp only [completes_cons, step, assign, Instruction.eval, succeeds_bind]
  congr 1
  funext _
  cases m.overlay.view.var var <;> simp

@[simp] theorem completes_moveVar (direction : Direction) (var : SlotIndex) (value : Register) :
    Completes env (.moveVar direction var value :: rest) m P =
      Succeeds (env.stateVar var 0) fun slot => Succeeds (m.registers.getTyped slot.type value 0)
        fun delta => Succeeds (Value.orZero (m.overlay.view.var var) slot.type 0) fun current =>
          Succeeds (Value.move (Instruction.moveVar direction var value).opcode direction
            current delta 0) fun next =>
              Completes env rest { m with overlay := m.overlay.record [.var var next] } P := by
  simp [completes_cons, step]

@[simp] theorem completes_setEntry (map : SlotIndex) (key value : Register) :
    Completes env (.setEntry map key value :: rest) m P =
      Succeeds (env.stateMap map 0) fun slot => Succeeds (m.registers.getTyped slot.key key 0)
        fun k => Succeeds (m.registers.getTyped slot.value value 0) fun v =>
          Completes env rest { m with overlay := m.overlay.record [.entry map k v] } P := by
  simp [completes_cons, step]

@[simp] theorem completes_getEntryOrZero (map : SlotIndex) (key dest : Register) :
    Completes env (.getEntryOrZero map key dest :: rest) m P =
      Succeeds (env.stateMap map 0) fun slot => Succeeds (m.registers.getTyped slot.key key 0)
        fun k => Succeeds (Value.orZero (m.overlay.view.entry map k) slot.value 0) fun v =>
          Succeeds (m.assign dest v) fun next => Completes env rest next P := by
  simp [completes_cons, step, assign]

@[simp] theorem completes_moveEntry (direction : Direction) (map : SlotIndex)
    (key value : Register) :
    Completes env (.moveEntry direction map key value :: rest) m P =
      Succeeds (env.stateMap map 0) fun slot => Succeeds (m.registers.getTyped slot.key key 0)
        fun k => Succeeds (m.registers.getTyped slot.value value 0) fun delta =>
          Succeeds (Value.orZero (m.overlay.view.entry map k) slot.value 0) fun current =>
            Succeeds (Value.move (Instruction.moveEntry direction map key value).opcode direction
              current delta 0) fun next =>
                Completes env rest
                  { m with overlay := m.overlay.record [.entry map k next] } P := by
  simp [completes_cons, step]

end Machine

end ContractMachine
