import ContractMachine.Machine.Run

/-! Where failures are. Every site that can fail names a position of its own accord; each of them
names the one that it is told, so the error of a step is a trap at the position of its
instruction. -/

namespace ContractMachine

/-- Whatever error the computation ends in is a trap at this position. -/
def FailsAt {α : Type} (position : Nat) (x : Except ExecError α) : Prop :=
  ∀ e, x = .error e → ∃ cause, e = .trap position cause

section FailsAt

variable {α β : Type} {position : Nat}

theorem failsAt_ok (a : α) : FailsAt position (.ok a : Except ExecError α) := by
  intro e he
  cases he

theorem failsAt_error (cause : Trap) :
    FailsAt position (.error (.trap position cause) : Except ExecError α) := by
  intro e he
  exact ⟨cause, (Except.error.inj he).symm⟩

theorem failsAt_pure (a : α) : FailsAt position (pure a : Except ExecError α) :=
  failsAt_ok a

theorem failsAt_throw (cause : Trap) :
    FailsAt position (throw (.trap position cause) : Except ExecError α) :=
  failsAt_error cause

theorem FailsAt.bind {x : Except ExecError α} {f : α → Except ExecError β}
    (hx : FailsAt position x) (hf : ∀ a, FailsAt position (f a)) : FailsAt position (x >>= f) := by
  cases x with
  | ok a => exact hf a
  | error e =>
      intro e' he'
      cases he'
      exact hx e rfl

theorem FailsAt.ite {p : Prop} [Decidable p] {x y : Except ExecError α} (hx : FailsAt position x)
    (hy : FailsAt position y) : FailsAt position (if p then x else y) := by
  by_cases h : p
  · rwa [if_pos h]
  · rwa [if_neg h]

/-- A check that ends the computation well or names the position. -/
theorem failsAt_check {p : Prop} [Decidable p] (a : α) (cause : Trap) :
    FailsAt position (if p then pure a else throw (.trap position cause)) :=
  (failsAt_pure a).ite (failsAt_throw cause)

end FailsAt

/-! ### Registers -/

namespace RegisterFile

variable (r : RegisterFile) (i : Register) (position : Nat)

theorem failsAt_set (v : Value) : FailsAt position (r.set i v position) :=
  (failsAt_ok _).ite (failsAt_error _)

theorem failsAt_get : FailsAt position (r.get i position) := by
  refine .ite ?_ (failsAt_error _)
  cases r.cells.get? i with
  | some v => exact failsAt_ok v
  | none => exact failsAt_error _

theorem failsAt_getTyped (type : DataType) : FailsAt position (r.getTyped type i position) :=
  (r.failsAt_get i position).bind fun v => failsAt_check v _

theorem failsAt_mismatch {α : Type} (expected : DataType) (found : Value) :
    FailsAt position (throw (mismatch expected found position) : Except ExecError α) :=
  failsAt_throw (.typeMismatch expected found.type)

theorem failsAt_getAmount : FailsAt position (r.getAmount i position) := by
  refine (r.failsAt_get i position).bind fun v => ?_
  cases v with
  | amount n => exact failsAt_pure n
  | _ => exact failsAt_mismatch position _ _

theorem failsAt_getInt32 : FailsAt position (r.getInt32 i position) := by
  refine (r.failsAt_get i position).bind fun v => ?_
  cases v with
  | int32 n => exact failsAt_pure n
  | _ => exact failsAt_mismatch position _ _

theorem failsAt_getBool : FailsAt position (r.getBool i position) := by
  refine (r.failsAt_get i position).bind fun v => ?_
  cases v with
  | boolean b => exact failsAt_pure b
  | _ => exact failsAt_mismatch position _ _

theorem failsAt_getTimestamp : FailsAt position (r.getTimestamp i position) := by
  refine (r.failsAt_get i position).bind fun v => ?_
  cases v with
  | timestamp n => exact failsAt_pure n
  | _ => exact failsAt_mismatch position _ _

theorem failsAt_getText : FailsAt position (r.getText i position) := by
  refine (r.failsAt_get i position).bind fun v => ?_
  cases v with
  | shortText s => exact failsAt_pure s
  | _ => exact failsAt_mismatch position _ _

theorem failsAt_getBigInteger : FailsAt position (r.getBigInteger i position) := by
  refine (r.failsAt_get i position).bind fun v => ?_
  cases v with
  | bigInteger n => exact failsAt_pure n
  | _ => exact failsAt_mismatch position _ _

theorem failsAt_getDataType : FailsAt position (r.getDataType i position) := by
  refine (r.failsAt_get i position).bind fun v => ?_
  cases v with
  | dataType t => exact failsAt_pure t
  | _ => exact failsAt_mismatch position _ _

theorem failsAt_getAccount (op : Opcode) : FailsAt position (r.getAccount op i position) := by
  refine (r.failsAt_get i position).bind fun v => ?_
  cases v.account? with
  | some a => exact failsAt_pure a
  | none => exact failsAt_throw _

/-- Arguments are placed before the first instruction. -/
theorem failsAt_seedFrom (index : Nat) (args : List Value) : FailsAt 0 (seedFrom index args r) := by
  induction args generalizing index r with
  | nil => exact failsAt_ok r
  | cons arg args ih =>
      refine .ite ?_ (failsAt_error _)
      cases h : r.set (UInt8.ofNat index) arg 0 with
      | ok next => exact ih next (index + 1)
      | error e =>
          intro e' he'
          exact r.failsAt_set _ 0 arg e' (h.trans he')

end RegisterFile

/-! ### Other sites that fail -/

theorem Context.failsAt_party (context : Context) (party : Party) (position : Nat) :
    FailsAt position (context.party party position) := by
  rw [Context.party]
  cases context.party? party with
  | some a => exact failsAt_ok a
  | none => exact failsAt_error _

theorem Env.failsAt_stateVar (env : Env) (index : SlotIndex) (position : Nat) :
    FailsAt position (env.stateVar index position) := by
  rw [Env.stateVar]
  cases env.contract.stateVar? index with
  | some d => exact failsAt_ok d
  | none => exact failsAt_error _

theorem Env.failsAt_stateMap (env : Env) (index : SlotIndex) (position : Nat) :
    FailsAt position (env.stateMap index position) := by
  rw [Env.stateMap]
  cases env.contract.stateMap? index with
  | some d => exact failsAt_ok d
  | none => exact failsAt_error _

theorem Effect.failsAt_ofLedger {α : Type} (o : LedgerOutcome α) (position : Nat) :
    FailsAt position (Effect.ofLedger o position) := by
  rw [Effect.ofLedger]
  cases o.answer with
  | ok a => exact failsAt_ok _
  | error e => exact failsAt_error _

/-- Every fault of the arithmetic becomes a trap at the position. -/
theorem Fault.failsAt_lift {α : Type} (op : Opcode) (position : Nat) (x : Except Fault α) :
    FailsAt position (Fault.lift op position x) := by
  cases x with
  | ok a => exact failsAt_ok a
  | error fault => cases fault <;> exact failsAt_error _

theorem Value.failsAt_orZero (stored : Option Value) (type : DataType) (position : Nat) :
    FailsAt position (orZero stored type position) := by
  cases stored with
  | some v => exact failsAt_ok v
  | none =>
      rw [orZero]
      cases zero? type with
      | some v => exact failsAt_ok v
      | none => exact failsAt_error _

theorem Value.failsAt_move (op : Opcode) (direction : Direction) (current delta : Value)
    (position : Nat) : FailsAt position (move op direction current delta position) := by
  have hmoved : FailsAt position (Fault.lift op position (binary direction.op current delta) >>=
      fun next => if direction = .minus ∧ next.sign? = some .lt then
        throw (.trap position .underflow) else pure next) :=
    (Fault.failsAt_lift op position _).bind fun next => (failsAt_throw _).ite (failsAt_pure next)
  rw [move]
  split
  · exact hmoved
  · exact failsAt_throw _
  · exact failsAt_throw _

theorem View.failsAt_lastTokenIndex (v : View) (position : Nat) :
    FailsAt position (v.lastTokenIndex position) := by
  refine .ite (failsAt_error _) ?_
  cases int32? (Int.ofNat (v.tokenCount.toNat - 1)) with
  | some n => exact failsAt_ok n
  | none => exact failsAt_error _

/-! ### Steps -/

section Step

open RegisterFile Value

variable (env : Env) (position : Nat)

/-- Operands, context, slots, arithmetic, state and ledger: an instruction that fails in any of
them names its own position. -/
theorem Instruction.failsAt_eval (view : View) (r : RegisterFile) (i : Instruction) :
    FailsAt position (i.eval env position view r) := by
  cases i with
  | loadParty party dest =>
      exact (env.context.failsAt_party party position).bind fun a => failsAt_pure _
  | loadTimestamp dest =>
      rw [eval]
      cases env.context.timestamp with
      | some now => exact failsAt_pure _
      | none => exact failsAt_throw _
  | loadLastTokenIndex dest =>
      exact (view.failsAt_lastTokenIndex position).bind fun last => failsAt_pure _
  | assertParty party account =>
      refine (r.failsAt_getAccount account position _).bind fun a => ?_
      exact (env.context.failsAt_party party position).bind fun expected => failsAt_check _ _
  | assertTrue cond =>
      exact (r.failsAt_getBool cond position).bind fun b => failsAt_check _ _
  | assertPermitted cond =>
      exact (r.failsAt_getBool cond position).bind fun b => failsAt_check _ _
  | assertEqual a b =>
      refine (r.failsAt_get a position).bind fun va => ?_
      exact (r.failsAt_get b position).bind fun vb => failsAt_check _ _
  | assertNotExpired now deadline =>
      refine (r.failsAt_getTimestamp now position).bind fun t => ?_
      exact (r.failsAt_getTimestamp deadline position).bind fun limit => failsAt_check _ _
  | constant value dest => exact failsAt_pure _
  | binary op a b dest =>
      refine (r.failsAt_get a position).bind fun va => ?_
      refine (r.failsAt_get b position).bind fun vb => ?_
      exact (Fault.failsAt_lift _ position _).bind fun v => failsAt_pure _
  | sqrt a dest =>
      refine (r.failsAt_getBigInteger a position).bind fun n => ?_
      exact (Fault.failsAt_lift _ position _).bind fun root => failsAt_pure _
  | convert value target dest =>
      refine (r.failsAt_getDataType target position).bind fun type => ?_
      refine (r.failsAt_get value position).bind fun v => ?_
      cases v.convert type with
      | ok w => exact failsAt_pure _
      | error e => exact failsAt_throw _
  | not a dest =>
      exact (r.failsAt_getBool a position).bind fun b => failsAt_pure _
  | compare relation a b dest =>
      refine (r.failsAt_get a position).bind fun va => ?_
      refine (r.failsAt_get b position).bind fun vb => ?_
      exact (Fault.failsAt_lift _ position _).bind fun order => failsAt_pure _
  | setVar var value =>
      refine (env.failsAt_stateVar var position).bind fun slot => ?_
      exact (r.failsAt_getTyped value position slot.type).bind fun v => failsAt_pure _
  | getVar var dest =>
      refine (env.failsAt_stateVar var position).bind fun slot => ?_
      cases view.var var with
      | some v => exact failsAt_pure _
      | none => exact failsAt_throw _
  | getVarOrZero var dest =>
      refine (env.failsAt_stateVar var position).bind fun slot => ?_
      exact (failsAt_orZero _ slot.type position).bind fun v => failsAt_pure _
  | moveVar direction var value =>
      refine (env.failsAt_stateVar var position).bind fun slot => ?_
      refine (r.failsAt_getTyped value position slot.type).bind fun delta => ?_
      refine (failsAt_orZero _ slot.type position).bind fun current => ?_
      exact (failsAt_move _ direction current delta position).bind fun next => failsAt_pure _
  | setEntry map key value =>
      refine (env.failsAt_stateMap map position).bind fun slot => ?_
      refine (r.failsAt_getTyped key position slot.key).bind fun k => ?_
      exact (r.failsAt_getTyped value position slot.value).bind fun v => failsAt_pure _
  | moveEntry direction map key value =>
      refine (env.failsAt_stateMap map position).bind fun slot => ?_
      refine (r.failsAt_getTyped key position slot.key).bind fun k => ?_
      refine (r.failsAt_getTyped value position slot.value).bind fun delta => ?_
      refine (failsAt_orZero _ slot.value position).bind fun current => ?_
      exact (failsAt_move _ direction current delta position).bind fun next => failsAt_pure _
  | getEntry map key dest =>
      refine (env.failsAt_stateMap map position).bind fun slot => ?_
      refine (r.failsAt_getTyped key position slot.key).bind fun k => ?_
      cases view.entry map k with
      | some v => exact failsAt_pure _
      | none => exact failsAt_throw _
  | getEntryOrZero map key dest =>
      refine (env.failsAt_stateMap map position).bind fun slot => ?_
      refine (r.failsAt_getTyped key position slot.key).bind fun k => ?_
      exact (failsAt_orZero _ slot.value position).bind fun v => failsAt_pure _
  | newToken max unit description =>
      refine (r.failsAt_getAmount max position).bind fun m => ?_
      refine (r.failsAt_getAmount unit position).bind fun u => ?_
      exact (r.failsAt_getText description position).bind fun text =>
        Effect.failsAt_ofLedger _ position
  | deposit token amount holder =>
      refine (r.failsAt_getInt32 token position).bind fun n => ?_
      refine (r.failsAt_getAmount amount position).bind fun x => ?_
      exact (r.failsAt_getAccount holder position _).bind fun a =>
        Effect.failsAt_ofLedger _ position
  | transfer source token amount target =>
      refine (r.failsAt_getAccount source position _).bind fun a => ?_
      refine (r.failsAt_getInt32 token position).bind fun n => ?_
      refine (r.failsAt_getAmount amount position).bind fun x => ?_
      exact (r.failsAt_getAccount target position _).bind fun b =>
        Effect.failsAt_ofLedger _ position
  | balance token holder dest =>
      refine (r.failsAt_getInt32 token position).bind fun n => ?_
      refine (r.failsAt_getAccount holder position _).bind fun a => ?_
      cases view.balanceOf n.toInt a with
      | ok x => exact failsAt_pure _
      | error e => exact failsAt_throw _

/-- A result that has no register fails at the position as well. -/
theorem Machine.failsAt_step (m : Machine) (i : Instruction) :
    FailsAt position (m.step env position i) := by
  refine (i.failsAt_eval env position m.overlay.view m.registers).bind fun effect => ?_
  cases effect with
  | result dest v =>
      exact (m.registers.failsAt_set dest position v).bind fun registers => failsAt_pure _
  | updates us => exact failsAt_pure _

end Step

end ContractMachine
