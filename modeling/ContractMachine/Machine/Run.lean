import ContractMachine.Machine.Step
import ContractMachine.State.Store

/-! Runs of a function: arguments go into the first registers, instructions run in order, and the
writes are committed only if none of them fails. -/

namespace ContractMachine

/-- The state of a run. -/
structure Machine where
  registers : RegisterFile
  overlay : Overlay

namespace Machine

/-- Perform the instruction at a position. -/
def step (env : Env) (position : Nat) (m : Machine) (i : Instruction) :
    Except ExecError Machine := do
  match ← i.eval env position m.overlay.view m.registers with
  | .result dest v =>
    let registers ← m.registers.set dest v position
    return { m with registers }
  | .updates updates => return { m with overlay := m.overlay.record updates }

/-- Perform instructions in order; the first of them is number `position`. -/
def runFrom (env : Env) : (position : Nat) → List Instruction → Machine → Except ExecError Machine
  | _, [], m => .ok m
  | position, i :: rest, m =>
    match m.step env position i with
    | .ok next => runFrom env (position + 1) rest next
    | .error e => .error e

end Machine

/-- An argument has the type of its parameter and fits the wire format. -/
def checkArgument (index : Nat) (type : DataType) (arg : Value) : Except ExecError Unit :=
  if arg.type = type then
    match arg.payloadLength? with
    | some (length, bound) =>
      if length ≤ bound then .ok () else .error (.argumentTooLong index length bound)
    | none => .ok ()
  else .error (.argumentType index type arg.type)

/-- Check arguments against parameters; the first of them is number `index`. -/
def checkArguments : (index : Nat) → List DataType → List Value → Except ExecError Unit
  | index, type :: types, arg :: args =>
    match checkArgument index type arg with
    | .ok () => checkArguments (index + 1) types args
    | .error e => .error e
  | _, _, _ => .ok ()

namespace RegisterFile

/-- Put arguments into registers from number `index` on. No instruction runs yet, so a failure
names the first. -/
def seedFrom : (index : Nat) → List Value → RegisterFile → Except ExecError RegisterFile
  | _, [], r => .ok r
  | index, arg :: args, r =>
    if index < 256 then
      match r.set (UInt8.ofNat index) arg 0 with
      | .ok next => seedFrom (index + 1) args next
      | .error e => .error e
    else .error (.trap 0 (.registerOutOfRange 255))

/-- A file that earlier calls have used, cleared and with these arguments in its first registers. -/
def start (used : RegisterFile) (args : List Value) : Except ExecError RegisterFile :=
  seedFrom 0 args used.clear

end RegisterFile

namespace Function

/-- The registers at the start of a call. -/
def seed (f : Function) (capacity : Nat) (args : List Value) : Except ExecError RegisterFile :=
  if args.length = f.params.length then
    match checkArguments 0 f.params args with
    | .ok () => RegisterFile.start { capacity } args
    | .error e => .error e
  else .error (.argumentCount f.params.length args.length)

/-- Run a function on a state; nothing is committed. -/
def run (f : Function) (env : Env) (capacity : Nat) (base : View) (args : List Value) :
    Except ExecError Machine :=
  match f.seed capacity args with
  | .ok registers => Machine.runFrom env 0 f.code ⟨registers, { base }⟩
  | .error e => .error e

/-- Run a function on a store and commit its writes. -/
def call {σ : Type} [Storage σ] (f : Function) (env : Env) (capacity : Nat) (store : σ)
    (args : List Value) : Except ExecError (RegisterFile × σ) :=
  match f.run env capacity (Storage.view store) args with
  | .ok m => .ok (m.registers, Storage.apply store m.overlay.writes)
  | .error e => .error e

end Function

end ContractMachine
