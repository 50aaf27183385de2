import ContractMachine.Proofs.State.Footprint
import ContractMachine.Proofs.State.InPlace

/-! What can influence an instruction and a call. An instruction reads the registers that it names
as its sources and changes the one that it names as its destination. A call that fails is decided
when it comes to the instruction that fails, whatever stands after it. -/

namespace ContractMachine

/-! ### Registers that an instruction reads and writes -/

namespace Instruction

/-- Register files that agree on the sources cannot be told apart. -/
theorem eval_congr (env : Env) {position : Nat} (view : View) {i : Instruction}
    {r r' : RegisterFile} (h : ∀ j ∈ i.sources, r.get j position = r'.get j position) :
    i.eval env position view r = i.eval env position view r' := by
  -- every typed reader of a register is a test of what `get` finds there
  cases i <;>
    simp only [sources, List.mem_cons, List.not_mem_nil, or_false, forall_eq_or_imp,
      forall_eq] at h <;>
    simp only [eval, RegisterFile.getTyped, RegisterFile.getAmount, RegisterFile.getInt32,
      RegisterFile.getBool, RegisterFile.getTimestamp, RegisterFile.getText,
      RegisterFile.getBigInteger, RegisterFile.getDataType, RegisterFile.getAccount, h]

/-- An instruction that succeeds has found a value in each of its sources. -/
theorem Yields.exists_source {env : Env} {view : View} {i : Instruction} {r : RegisterFile}
    {effect : Effect} (h : i.Yields env view r effect) :
    ∀ j ∈ i.sources, ∃ v, r.get? j = some v := by
  cases h <;> simp [sources, *]

end Instruction

namespace RegisterFile

variable {r r' : RegisterFile} {dest : Register} {v : Value}

/-- The other registers read as before, or fail to be read as before. -/
theorem get_write (hdest : dest.toNat < r.capacity) (j : Register) (position : Nat) :
    (r.write dest v).get j position = if j = dest then .ok v else r.get j position := by
  by_cases hj : j = dest
  · rw [if_pos hj, get_eq_ok_iff, get?_write hdest, if_pos hj]
  · simp [get, write, hj, OrderedMap.get?_insert_of_ne]

/-- Whether a register can be written depends on their number alone. -/
theorem set_alike (h : r.capacity = r'.capacity) (dest : Register) (v : Value) (position : Nat) :
    Alike (fun next next' => dest.toNat < r.capacity ∧ next = r.write dest v ∧
        next' = r'.write dest v)
      (r.set dest v position) (r'.set dest v position) := by
  by_cases hroom : dest.toNat < r.capacity
  · rw [set_eq_ok_iff.mpr ⟨hroom, rfl⟩, set_eq_ok_iff.mpr ⟨h ▸ hroom, rfl⟩]
    exact .ok ⟨hroom, rfl, rfl⟩
  · rw [set, set, if_neg hroom, if_neg (h ▸ hroom)]
    exact .error _

end RegisterFile

namespace Machine

/-- What an instruction leaves in two machines that differ in other registers than its sources,
from wherever the registers are read then. -/
structure SameEffect (i : Instruction) (m m' next next' : Machine) : Prop where
  overlay_eq : next.overlay = next'.overlay
  dest : ∀ dest, i.dest? = some dest → ∃ v, ∀ position,
    next.registers.get dest position = .ok v ∧ next'.registers.get dest position = .ok v
  others : ∀ j, i.dest? ≠ some j → ∀ position,
    next.registers.get j position = m.registers.get j position ∧
      next'.registers.get j position = m'.registers.get j position

theorem step_alike (env : Env) {position : Nat} {m m' : Machine} {i : Instruction}
    (hoverlay : m.overlay = m'.overlay)
    (hcapacity : m.registers.capacity = m'.registers.capacity)
    (hsources : ∀ j ∈ i.sources, m.registers.get j position = m'.registers.get j position) :
    Alike (SameEffect i m m') (m.step env position i) (m'.step env position i) := by
  have heval := Instruction.eval_congr env m.overlay.view hsources
  rw [step, step, ← hoverlay, ← heval]
  cases hi : i.eval env position m.overlay.view m.registers with
  | error e => exact .error e
  | ok effect =>
      have hdest := (Instruction.eval_eq_ok_iff.mp hi).dest?_eq
      cases effect with
      | updates us =>
          refine .ok ⟨rfl, fun dest h => ?_, fun j _ _ => ⟨rfl, rfl⟩⟩
          rw [hdest] at h
          cases h
      | result dest v =>
          have hset := RegisterFile.set_alike hcapacity dest v position
          simp only [bind, Except.bind]
          generalize m.registers.set dest v position = found at hset ⊢
          generalize m'.registers.set dest v position = found' at hset ⊢
          cases hset with
          | error e => exact .error e
          | ok hnext =>
              obtain ⟨hroom, rfl, rfl⟩ := hnext
              have hread := RegisterFile.get_write (v := v) hroom
              have hread' := RegisterFile.get_write (v := v) (hcapacity ▸ hroom)
              refine .ok ⟨rfl, fun j hj => ⟨v, fun p => ?_⟩, fun j hj p => ?_⟩
              · obtain rfl : dest = j := Option.some.inj (hdest.symm.trans hj)
                exact ⟨(hread dest p).trans (if_pos rfl), (hread' dest p).trans (if_pos rfl)⟩
              · have hne : j ≠ dest := by
                  rintro rfl
                  exact hj hdest
                exact ⟨(hread j p).trans (if_neg hne), (hread' j p).trans (if_neg hne)⟩

/-- What an instruction does at a position is decided by the overlay, the number of registers and
the values of its sources: it fails in the same way, or it makes the same writes and puts the same
value into its destination. It changes no other register, and it succeeds only if its sources are
all set. -/
theorem operands_are_register_footprint (env : Env) (position : Nat) (i : Instruction)
    (m : Machine) :
    (∀ m' : Machine, m.overlay = m'.overlay → m.registers.capacity = m'.registers.capacity →
      (∀ j ∈ i.sources, m.registers.get j position = m'.registers.get j position) →
        Alike (SameEffect i m m') (m.runFrom env position [i]) (m'.runFrom env position [i])) ∧
    ∀ next, m.runFrom env position [i] = .ok next →
      ∀ j ∈ i.sources, ∃ v, m.registers.get j position = .ok v := by
  constructor
  · intro m' hoverlay hcapacity hsources
    have hstep := step_alike env hoverlay hcapacity hsources
    rw [runFrom, runFrom]
    generalize m.step env position i = found at hstep ⊢
    generalize m'.step env position i = found' at hstep ⊢
    cases hstep with
    | ok heffect => exact .ok heffect
    | error e => exact .error e
  · intro next h
    obtain ⟨middle, hstep, -⟩ := runFrom_cons_eq_ok_iff.mp h
    simp only [RegisterFile.get_eq_ok_iff]
    cases hstep with
    | result hyields hdest => exact hyields.exists_source
    | updates hyields => exact hyields.exists_source

/-- A sum over one of its own operands does not depend on a register that it does not name. -/
theorem sum_ignores_flag :
    let machine (flag : Bool) : Machine :=
      ⟨.ofValues 4 [.amount 3, .amount 4, .boolean flag], { base := Store.view {} }⟩
    ∃ next next', (machine true).runFrom ⟨.bookkeeping, {}⟩ 7 [.binary .add 0 1 0] = .ok next ∧
      (machine false).runFrom ⟨.bookkeeping, {}⟩ 7 [.binary .add 0 1 0] = .ok next' ∧
      next.registers.get 2 7 = .ok (.boolean true) ∧
      next'.registers.get 2 7 = .ok (.boolean false) ∧
      ∃ v, ∀ position,
        next.registers.get 0 position = .ok v ∧ next'.registers.get 0 position = .ok v := by
  intro machine
  have hok : ((machine true).runFrom ⟨.bookkeeping, {}⟩ 7 [.binary .add 0 1 0]).isOk = true := by
    decide +kernel
  obtain ⟨hconfined, -⟩ :=
    operands_are_register_footprint ⟨.bookkeeping, {}⟩ 7 (.binary .add 0 1 0) (machine true)
  have halike := hconfined (machine false) rfl rfl (by decide +kernel)
  generalize (machine true).runFrom ⟨.bookkeeping, {}⟩ 7 [.binary .add 0 1 0] = found at *
  generalize (machine false).runFrom ⟨.bookkeeping, {}⟩ 7 [.binary .add 0 1 0] = found' at *
  cases halike with
  | error e => cases hok
  | ok heffect =>
      obtain ⟨hflag, hflag'⟩ := heffect.others 2 (by decide) 7
      exact ⟨_, _, rfl, rfl, hflag, hflag', heffect.dest 0 rfl⟩

end Machine

/-! ### The instruction that fails -/

namespace Function

/-- The function with the first instructions of its body only. -/
def cut (f : Function) (n : Nat) : Function := { f with code := f.code.take n }

/-- What is run in place of the body starts from the same registers. -/
theorem run_of_seed {f : Function} {env : Env} {capacity : Nat} {base : View} {args : List Value}
    {registers : RegisterFile} (hseed : f.seed capacity args = .ok registers)
    (code : List Instruction) :
    ({ f with code } : Function).run env capacity base args =
      Machine.runFrom env 0 code ⟨registers, { base }⟩ := by
  have hsame : ({ f with code } : Function).seed capacity args = .ok registers := hseed
  rw [run, hsame]

/-- A call that fails after its arguments are in place names the instruction at which it failed:
all before it were performed, it is the first to fail, and whatever is put after it, or left out
there, the call fails in the same way. -/
theorem failure_names_first_failing {f : Function} {env : Env} {capacity : Nat} {base : View}
    {args : List Value} {registers : RegisterFile} {e : ExecError}
    (hseed : f.seed capacity args = .ok registers)
    (h : f.run env capacity base args = .error e) :
    ∃ k cause, e = .trap k cause ∧ k < f.code.length ∧
      (∃ m i, (f.cut k).run env capacity base args = .ok m ∧ f.code[k]? = some i ∧
        m.step env k i = .error e) ∧
      (∀ n, k < n → (f.cut n).run env capacity base args = .error e) ∧
      ∀ after, ({ f with code := f.code.take (k + 1) ++ after } : Function).run env capacity base
        args = .error e := by
  have hrun : ∀ code, ({ f with code } : Function).run env capacity base args =
      Machine.runFrom env 0 code ⟨registers, { base }⟩ := run_of_seed hseed
  have hbody := (hrun f.code).symm.trans h
  obtain ⟨first, i, rest, m, hcode, hfirst, hstop⟩ := Machine.exists_stop_of_runFrom hbody
  -- the error is the one of the instruction, which names the position that it stands at
  obtain ⟨cause, he⟩ := m.failsAt_step env _ i e hstop
  have hbefore : f.code.take first.length = first := by rw [hcode, List.take_left]
  have hupto : f.code.take (first.length + 1) = first ++ [i] := by
    rw [hcode, List.take_length_add_append]
    rfl
  have hafter : ∀ after, ({ f with code := f.code.take (first.length + 1) ++ after } :
      Function).run env capacity base args = .error e := by
    intro after
    rw [hrun, hupto, List.append_assoc, List.singleton_append,
      Machine.runFrom_of_stop hfirst hstop]
  rw [Nat.zero_add] at he hstop
  refine ⟨first.length, cause, he, ?_, ⟨m, i, ?_, ?_, hstop⟩, ?_, hafter⟩
  · simp [hcode]
  · rw [cut, hrun, hbefore]
    exact hfirst
  · simp [hcode]
  · intro n hn
    have hlonger : f.code.take (first.length + 1) ++ (f.code.take n).drop (first.length + 1) =
        f.code.take n := by
      have hsplit := List.take_append_drop (first.length + 1) (f.code.take n)
      rwa [List.take_take, Nat.min_eq_left hn] at hsplit
    rw [cut, ← hlonger]
    exact hafter _

/-- Without its variables the booking fails at its fourth instruction, when the token is defined
and issued, and it would also if the instructions after that one were others. -/
theorem booking_fails_at_variable :
    let undeclared : Env := ⟨{ Contract.bookkeeping with stateVars := [] }, {}⟩
    let args : List Value :=
      [.amount 20, .shortText "silver", .address ⟨List.replicate 26 1, rfl⟩]
    let base : View := Store.view {}
    bookIssue.run undeclared 8 base args = .error (.trap 3 (.undeclaredVar 6)) ∧
      (∃ m, (bookIssue.cut 3).run undeclared 8 base args = .ok m) ∧
      ∀ n, 3 < n → (bookIssue.cut n).run undeclared 8 base args =
        .error (.trap 3 (.undeclaredVar 6)) := by
  intro undeclared args base
  obtain ⟨registers, hseed⟩ := exists_of_isOk (x := bookIssue.seed 8 args) (by decide +kernel)
  have hrun : bookIssue.run undeclared 8 base args = .error (.trap 3 (.undeclaredVar 6)) := by
    have hcheck : (bookIssue.run undeclared 8 base args).map (fun _ => ()) =
        .error (.trap 3 (.undeclaredVar 6)) := by decide +kernel
    generalize bookIssue.run undeclared 8 base args = result at hcheck ⊢
    cases result with
    | ok m => cases hcheck
    | error e => exact congrArg Except.error (Except.error.inj hcheck)
  obtain ⟨k, cause, he, -, ⟨m, -, hcut, -⟩, hlonger, -⟩ := failure_names_first_failing hseed hrun
  obtain ⟨rfl, rfl⟩ : 3 = k ∧ .undeclaredVar 6 = cause := by simpa using he
  exact ⟨hrun, ⟨m, hcut⟩, hlonger⟩

end Function

end ContractMachine
