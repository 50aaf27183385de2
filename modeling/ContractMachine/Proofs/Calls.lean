import ContractMachine.Deployment
import ContractMachine.Proofs.Execution

/-! Calls of a deployed contract. A call succeeds if its arguments have the types of the
parameters and the body completes; a run is any sequence of calls, of which the failed ones
change nothing. -/

namespace ContractMachine

/-! ### Arguments -/

namespace Function

/-- There is an argument of the right type for each parameter, and each fits the wire format. -/
def Accepts (f : Function) (args : List Value) : Prop :=
  args.map Value.type = f.params ∧ ∀ arg ∈ args, arg.encodable = true

end Function

theorem type_eq_address_iff (v : Value) : v.type = .address ↔ ∃ a, v = .address a := by
  cases v <;> simp [Value.type]

theorem type_eq_tokenId_iff (v : Value) : v.type = .tokenId ↔ ∃ t, v = .tokenId t := by
  cases v <;> simp [Value.type]

theorem type_eq_amount_iff (v : Value) : v.type = .amount ↔ ∃ n, v = .amount n := by
  cases v <;> simp [Value.type]

theorem type_eq_timestamp_iff (v : Value) : v.type = .timestamp ↔ ∃ n, v = .timestamp n := by
  cases v <;> simp [Value.type]

theorem type_eq_int32_iff (v : Value) : v.type = .int32 ↔ ∃ n, v = .int32 n := by
  cases v <;> simp [Value.type]

theorem type_eq_boolean_iff (v : Value) : v.type = .boolean ↔ ∃ b, v = .boolean b := by
  cases v <;> simp [Value.type]

theorem type_eq_shortText_iff (v : Value) : v.type = .shortText ↔ ∃ s, v = .shortText s := by
  cases v <;> simp [Value.type]

theorem checkArgument_eq_ok_iff (index : Nat) (type : DataType) (arg : Value) :
    checkArgument index type arg = .ok () ↔ arg.type = type ∧ arg.encodable = true := by
  rw [checkArgument, Value.encodable]
  by_cases htype : arg.type = type
  · cases hlength : arg.payloadLength? with
    | none => simp [htype]
    | some pair =>
        obtain ⟨length, bound⟩ := pair
        by_cases hfits : length ≤ bound <;> simp [htype, hfits]
  · simp [htype]

theorem checkArguments_eq_ok_iff (index : Nat) (types : List DataType) (args : List Value)
    (hlength : args.length = types.length) :
    checkArguments index types args = .ok () ↔
      args.map Value.type = types ∧ ∀ arg ∈ args, arg.encodable = true := by
  induction types generalizing index args with
  | nil =>
      obtain rfl : args = [] := List.eq_nil_of_length_eq_zero hlength
      simp [checkArguments]
  | cons type types ih =>
      cases args with
      | nil => simp at hlength
      | cons arg args =>
          have hrest := ih (index + 1) args (by simpa using hlength)
          have hfirst := checkArgument_eq_ok_iff index type arg
          cases hcheck : checkArgument index type arg with
          | ok _ =>
              obtain ⟨htype, hfits⟩ := hfirst.mp hcheck
              simp [checkArguments, hcheck, hrest, htype, hfits]
          | error e =>
              rw [hcheck] at hfirst
              have hbad : arg.type = type → ¬arg.encodable = true := by simpa using hfirst
              simp only [checkArguments, hcheck, List.map_cons, List.cons.injEq, List.mem_cons]
              grind

/-- Arguments go into the registers after those that are filled. -/
theorem seedFrom_ofValues (capacity : Nat) (values args : List Value)
    (hcapacity : values.length + args.length ≤ capacity)
    (hregisters : values.length + args.length ≤ 256) :
    RegisterFile.seedFrom values.length args (.ofValues capacity values) =
      .ok (.ofValues capacity (values ++ args)) := by
  induction args generalizing values with
  | nil => simp [RegisterFile.seedFrom]
  | cons arg args ih =>
      have hnext : (UInt8.ofNat values.length).toNat = values.length := by
        rw [List.length_cons] at hregisters
        simp only [UInt8.toNat_ofNat']
        omega
      have hset : (RegisterFile.ofValues capacity values).set (UInt8.ofNat values.length) arg 0 =
          .ok (.ofValues capacity (values ++ [arg])) := by
        rw [List.length_cons] at hcapacity
        refine RegisterFile.set_ofValues capacity values _ arg 0 hnext.symm ?_
        omega
      have hrest := ih (values ++ [arg]) (by simp_all; omega) (by simp_all; omega)
      rw [List.length_append, List.length_singleton, List.append_assoc] at hrest
      rw [List.length_cons] at hregisters
      rw [RegisterFile.seedFrom, if_pos (by omega), hset]
      exact hrest

/-- What earlier calls have left in a register file does not matter to the next. -/
theorem RegisterFile.start_eq (used : RegisterFile) (args : List Value) :
    used.start args = seedFrom 0 args { capacity := used.capacity } :=
  rfl

theorem Function.succeeds_seed {f : Function} {capacity : Nat}
    (hcapacity : f.params.length ≤ capacity) (hregisters : f.params.length ≤ 256)
    (args : List Value) (P : RegisterFile → Prop) :
    Succeeds (f.seed capacity args) P = (f.Accepts args ∧ P (.ofValues capacity args)) := by
  rw [eq_iff_iff, seed, RegisterFile.start_eq, Accepts]
  by_cases hlength : args.length = f.params.length
  · have hseed := seedFrom_ofValues capacity [] args (by simp; omega) (by simp; omega)
    have hempty : RegisterFile.ofValues capacity [] = { capacity } := rfl
    rw [hempty] at hseed
    rw [if_pos hlength, ← checkArguments_eq_ok_iff 0 f.params args hlength]
    cases checkArguments 0 f.params args with
    | ok _ => simp_all
    | error e => simp
  · rw [if_neg hlength]
    simp only [succeeds_error, false_iff, not_and]
    rintro ⟨htypes, -⟩
    exact absurd (by rw [← htypes, List.length_map]) hlength

/-- There is a register for each argument that was put into one. -/
theorem length_le_of_seedFrom {index : Nat} {args : List Value} {r next : RegisterFile}
    (hregisters : index ≤ 256) (hcapacity : index ≤ r.capacity)
    (h : RegisterFile.seedFrom index args r = .ok next) :
    index + args.length ≤ r.capacity ∧ index + args.length ≤ 256 := by
  induction args generalizing index r with
  | nil => exact ⟨hcapacity, hregisters⟩
  | cons arg args ih =>
      rw [RegisterFile.seedFrom] at h
      split at h
      · rename_i hindex
        have hnumber : (UInt8.ofNat index).toNat = index := UInt8.toNat_ofNat_of_lt' hindex
        rw [RegisterFile.set, hnumber] at h
        by_cases hroom : index < r.capacity
        · rw [if_pos hroom] at h
          have hrest := ih (r := { r with cells := r.cells.insert (UInt8.ofNat index) arg })
            hindex hroom h
          simp only [List.length_cons] at hrest ⊢
          omega
        · rw [if_neg hroom] at h
          cases h
      · cases h

/-- A run that completes has accepted its arguments, put each into a register, and gone through
the body from there. -/
theorem Function.run_eq_ok {f : Function} {env : Env} {capacity : Nat} {base : View}
    {args : List Value} {m : Machine} (h : f.run env capacity base args = .ok m) :
    f.Accepts args ∧ args.length ≤ capacity ∧
      Machine.runFrom env 0 f.code ⟨.ofValues capacity args, { base }⟩ = .ok m := by
  rw [run, seed, RegisterFile.start_eq] at h
  by_cases hlength : args.length = f.params.length
  · rw [if_pos hlength] at h
    cases hcheck : checkArguments 0 f.params args with
    | error e => simp [hcheck] at h
    | ok _ =>
        cases hseed : RegisterFile.seedFrom 0 args { capacity } with
        | error e => simp [hcheck, hseed] at h
        | ok registers =>
            obtain ⟨hroom, hregisters⟩ := length_le_of_seedFrom (by simp) (by simp) hseed
            have hvalues := seedFrom_ofValues capacity [] args hroom hregisters
            obtain rfl : registers = .ofValues capacity args :=
              Except.ok.inj (hseed.symm.trans hvalues)
            simp only [hcheck, hseed] at h
            rw [Nat.zero_add] at hroom
            exact ⟨(checkArguments_eq_ok_iff 0 f.params args hlength).mp hcheck, hroom, h⟩
  · simp [hlength] at h

/-! ### Calls -/

theorem ValidContract.initTrigger_mem (v : ValidContract) :
    v.initTrigger ∈ v.contract.triggers ++ v.contract.functions :=
  List.mem_append_left _ (List.mem_filter.mp (List.head_mem _)).1

/-- A call of a deployed contract. -/
inductive Call where
  | invoke (id : FunctionId) (context : Context) (args : List Value)
  | deposit (token : TokenId) (account : Address) (amount : Int64) (context : Context)
  | withdraw (token : TokenId) (account : Address) (amount : Int64) (context : Context)

def Call.context : Call → Context
  | .invoke _ context _ | .deposit _ _ _ context | .withdraw _ _ _ context => context

/-- The call is of the public function with this id. -/
def Call.Invokes (c : Call) (id : FunctionId) : Prop :=
  match c with
  | .invoke called _ _ => called = id
  | .deposit _ _ _ _ | .withdraw _ _ _ _ => False

instance (c : Call) (id : FunctionId) : Decidable (c.Invokes id) :=
  match c with
  | .invoke called _ _ => inferInstanceAs (Decidable (called = id))
  | .deposit _ _ _ _ | .withdraw _ _ _ _ => inferInstanceAs (Decidable False)

/-- The amount of a token that the call pays in. -/
def Call.deposited (token : TokenId) : Call → Int
  | .deposit paid _ amount _ => if paid = token then amount.toInt else 0
  | .invoke _ _ _ | .withdraw _ _ _ _ => 0

/-- The amount of a token that the call takes out. -/
def Call.withdrawn (token : TokenId) : Call → Int
  | .withdraw taken _ amount _ => if taken = token then amount.toInt else 0
  | .invoke _ _ _ | .deposit _ _ _ _ => 0

namespace Deployment

variable {σ : Type}

/-- The total of an amount over successful calls. -/
def tally (amount : Deployment σ × Call → Int) (past : List (Deployment σ × Call)) : Int :=
  past.foldl (fun total e => total + amount e) 0

@[simp] theorem tally_nil (amount : Deployment σ × Call → Int) : tally amount [] = 0 := rfl

@[simp] theorem tally_concat (amount : Deployment σ × Call → Int)
    (past : List (Deployment σ × Call)) (e : Deployment σ × Call) :
    tally amount (past ++ [e]) = tally amount past + amount e := by
  simp [tally]

/-- How often a public function is among successful calls. -/
def timesInvoked (id : FunctionId) (past : List (Deployment σ × Call)) : Nat :=
  past.countP fun e => e.2.Invokes id

@[simp] theorem timesInvoked_concat (id : FunctionId) (past : List (Deployment σ × Call))
    (e : Deployment σ × Call) :
    timesInvoked id (past ++ [e]) = timesInvoked id past + if e.2.Invokes id then 1 else 0 := by
  simp [timesInvoked, List.countP_singleton]

variable [Storage σ]

/-- Committing the writes leads to this deployment. -/
def LeadsTo (d next : Deployment σ) (o : Overlay) : Prop :=
  { d with store := Storage.apply d.store o.writes } = next

theorem call_eq_ok_iff {d next : Deployment σ} {f : Function} {context : Context}
    {args : List Value} (hcapacity : f.params.length ≤ d.contract.limits.registerCapacity)
    (hregisters : f.params.length ≤ 256) :
    d.call f context args = .ok next ↔
      f.Accepts args ∧
        Machine.Completes ⟨d.contract.contract, context⟩ f.code
          ⟨.ofValues d.contract.limits.registerCapacity args, { base := Storage.view d.store }⟩
          fun m => d.LeadsTo next m.overlay := by
  rw [← f.succeeds_seed hcapacity hregisters args fun registers =>
    Machine.Completes ⟨d.contract.contract, context⟩ f.code ⟨registers, { base := _ }⟩ _]
  rw [call, Function.call, Function.run]
  cases f.seed d.contract.limits.registerCapacity args with
  | error e => simp
  | ok registers =>
      simp only [succeeds_ok, Machine.Completes]
      cases Machine.runFrom ⟨d.contract.contract, context⟩ 0 f.code ⟨registers, _⟩ <;>
        simp [LeadsTo]

/-- A call fails where its body does. -/
theorem call_eq_error {d : Deployment σ} {f : Function} {context : Context} {args : List Value}
    {e : ExecError} (hcapacity : f.params.length ≤ d.contract.limits.registerCapacity)
    (hregisters : f.params.length ≤ 256) (haccepts : f.Accepts args)
    (h : Machine.runFrom ⟨d.contract.contract, context⟩ 0 f.code
      ⟨.ofValues d.contract.limits.registerCapacity args, { base := Storage.view d.store }⟩ =
        .error e) :
    d.call f context args = .error e := by
  have hseed := (f.succeeds_seed hcapacity hregisters args
    (· = .ofValues d.contract.limits.registerCapacity args)).mpr ⟨haccepts, rfl⟩
  obtain ⟨registers, hseed, rfl⟩ := hseed
  simp only [call, Function.call, Function.run, hseed, h]

/-- Where no two public functions share an id, the call is of the one that has it. -/
theorem invoke_eq_ok_iff {d next : Deployment σ} {id : FunctionId} {context : Context}
    {args : List Value} (hids : (d.contract.contract.functions.map Function.id).Nodup) :
    d.invoke id context args = .ok next ↔
      ∃ f ∈ d.contract.contract.functions, f.id = id ∧ d.call f context args = .ok next := by
  rw [invoke, ValidContract.function?]
  constructor
  · intro h
    split at h
    · rename_i f hf
      exact ⟨f, List.mem_of_find?_eq_some hf, by simpa using List.find?_some hf, h⟩
    · cases h
  · rintro ⟨f, hf, rfl, h⟩
    cases hfind : d.contract.contract.functions.find? fun g => g.id == f.id with
    | none => simpa using List.find?_eq_none.mp hfind f hf
    | some g =>
        have hid : g.id = f.id := by simpa using List.find?_some hfind
        obtain rfl := List.inj_on_of_nodup_map hids (List.mem_of_find?_eq_some hfind) hf hid
        exact h

def perform (d : Deployment σ) : Call → Except ExecError (Deployment σ)
  | .invoke id context args => d.invoke id context args
  | .deposit token account amount context => d.deposit token account amount context
  | .withdraw token account amount context => d.withdraw token account amount context

/-- The function that a call runs and the arguments that it runs with. -/
def target? (d : Deployment σ) : Call → Option (Function × List Value)
  | .invoke id _ args => (d.contract.function? id).map (·, args)
  | .deposit token account amount _ =>
    (d.tokenTrigger? (fun | .onDeposit var => some var | _ => none) token).map
      (·, [.address account, .amount amount])
  | .withdraw token account amount _ =>
    (d.tokenTrigger? (fun | .onWithdraw var => some var | _ => none) token).map
      (·, [.address account, .amount amount])

/-- A call that succeeds runs a trigger or a public function. -/
theorem exists_target_of_perform {d next : Deployment σ} {c : Call} (h : d.perform c = .ok next) :
    ∃ f ∈ d.contract.contract.triggers ++ d.contract.contract.functions, ∃ args,
      d.target? c = some (f, args) ∧ d.call f c.context args = .ok next := by
  have htrigger : ∀ watched token account amount context,
      d.runTokenTrigger watched token account amount context = .ok next →
      ∃ f ∈ d.contract.contract.triggers ++ d.contract.contract.functions, ∃ args,
        (d.tokenTrigger? watched token).map (·, [.address account, .amount amount]) =
          some (f, args) ∧ d.call f context args = .ok next := by
    intro watched token account amount context h
    rw [runTokenTrigger] at h
    cases hf : d.tokenTrigger? watched token with
    | none => simp [hf] at h
    | some f =>
        rw [hf] at h
        exact ⟨f, List.mem_append_left _ (List.mem_of_find?_eq_some hf), _, rfl, h⟩
  cases c with
  | invoke id context args =>
      rw [perform, invoke] at h
      cases hf : d.contract.function? id with
      | none => simp [hf] at h
      | some f =>
          rw [hf] at h
          exact ⟨f, List.mem_append_right _ (List.mem_of_find?_eq_some hf), args,
            by simp [target?, hf], h⟩
  | deposit token account amount context => exact htrigger _ _ _ _ _ h
  | withdraw token account amount context => exact htrigger _ _ _ _ _ h

/-- Every call that succeeds is a call of a trigger or a public function. -/
theorem exists_call_of_perform {d next : Deployment σ} {c : Call} (h : d.perform c = .ok next) :
    ∃ f ∈ d.contract.contract.triggers ++ d.contract.contract.functions, ∃ context args,
      d.call f context args = .ok next := by
  obtain ⟨f, hf, args, -, hcall⟩ := exists_target_of_perform h
  exact ⟨f, hf, c.context, args, hcall⟩

/-! ### Runs -/

/-- The deployment after a call, whether or not it succeeds. -/
def attempt (d : Deployment σ) (c : Call) : Deployment σ :=
  match d.perform c with
  | .ok next => next
  | .error _ => d

/-- The deployment after a sequence of calls. -/
def after (d : Deployment σ) (calls : List Call) : Deployment σ :=
  calls.foldl attempt d

/-- The calls of a run that succeed, each with the deployment it was made on. -/
def history (d : Deployment σ) : List Call → List (Deployment σ × Call)
  | [] => []
  | c :: rest =>
    match d.perform c with
    | .ok next => (d, c) :: next.history rest
    | .error _ => d.history rest

/-- What holds at the start and is kept by every successful call holds after every run; the
property may speak of the successful calls so far. -/
theorem run_induction {I : Deployment σ → List (Deployment σ × Call) → Prop} {d : Deployment σ}
    (hstart : I d [])
    (hstep : ∀ d past c next, I d past → d.perform c = .ok next → I next (past ++ [(d, c)]))
    (calls : List Call) : I (d.after calls) (d.history calls) := by
  have hrun : ∀ (calls : List Call) (d : Deployment σ) (past : List (Deployment σ × Call)),
      I d past → I (d.after calls) (past ++ d.history calls) := by
    intro calls
    induction calls with
    | nil =>
        intro d past h
        simpa [after, history] using h
    | cons c rest ih =>
        intro d past h
        simp only [after, List.foldl_cons, history, attempt]
        cases hc : d.perform c with
        | ok next =>
            have hnext := ih next (past ++ [(d, c)]) (hstep d past c next h hc)
            simpa [after] using hnext
        | error e => exact ih d past h
  simpa using hrun calls d [] hstart

end Deployment

end ContractMachine
