import ContractMachine.Proofs.State.Numbering
import ContractMachine.Proofs.State.Operations

/-! Work in place. On a store that is changed at once, operations and runs give the answers that
they give on an overlay, and they leave the state that committing the overlay leaves. -/

namespace ContractMachine

/-! ### Stores that are changed at once -/

namespace Store

def setToken (s : Store) (index : TokenIndex) (token : Token) : Store :=
  { s with tokens := putToken s.tokens index token }

def setBalance (s : Store) (index : TokenIndex) (holder : Address) (amount : Int64) : Store :=
  { s with balances := s.balances.insert ⟨index, holder⟩ amount }

/-- Make an update. The number of tokens follows from the tokens themselves. -/
def put (s : Store) : Update → Store
  | .var index value => s.setVar index value
  | .entry index key value => s.setEntry index key value
  | .token index token => s.setToken index token
  | .tokenCount _ => s
  | .balance index holder amount => s.setBalance index holder amount

/-- Define a token at the end of the list. -/
def newToken (s : Store) (maxSupply unit : Int64) (description : String) :
    Except TokenError TokenIndex × Store :=
  if maxSupply.toInt ≤ 0 ∨ unit.toInt ≤ 0 then (.error (.invalidDefinition maxSupply unit), s)
  else if s.tokens.length + 1 < 4294967296 then
    (.ok (UInt32.ofNat s.tokens.length),
      { s with tokens := s.tokens ++ [⟨maxSupply, unit, description, 0⟩] })
  else (.error .overflow, s)

/-- Issue units of a token to a holder. -/
def deposit (s : Store) (index : Int) (holder : Address) (amount : Int64) :
    Except TokenError Unit × Store :=
  if amount.toInt ≤ 0 then (.error (.nonPositiveAmount amount), s)
  else
    match s.view.knownToken index with
    | .error e => (.error e, s)
    | .ok (i, token) =>
      if token.issued.toInt + amount.toInt ≤ token.maxSupply.toInt then
        match int64? ((s.view.balance i holder).toInt + amount.toInt) with
        | some balance =>
          let issued := s.setToken i { token with issued := token.issued + amount }
          (.ok (), issued.setBalance i holder balance)
        | none => (.error .overflow, s)
      else (.error (.supplyExceeded amount token.issued token.maxSupply), s)

/-- Debit the source, then credit the target with what the store holds after that. -/
def transfer (s : Store) (index : Int) (source target : Address) (amount : Int64) :
    Except TokenError Unit × Store :=
  if amount.toInt ≤ 0 then (.error (.nonPositiveAmount amount), s)
  else
    match s.view.knownToken index with
    | .error e => (.error e, s)
    | .ok (i, _) =>
      let held := s.view.balance i source
      if held.toInt < amount.toInt then (.error (.insufficientBalance held amount), s)
      else
        let debited := s.setBalance i source (held - amount)
        match int64? ((debited.view.balance i target).toInt + amount.toInt) with
        | some credited => (.ok (), debited.setBalance i target credited)
        | none => (.error .overflow, debited)

/-- Answer an operation from the store, and make its writes at once. -/
def perform (s : Store) : Operation → Answer × Store
  | .var index => (.value (s.view.var index), s)
  | .entry index key => (.value (s.view.entry index key), s)
  | .token index => (.token (s.view.token index), s)
  | .tokenCount => (.count s.view.tokenCount, s)
  | .balance index holder => (.amount (s.view.balance index holder), s)
  | .balanceOf index holder => (.ofExcept .amount (s.view.balanceOf index holder), s)
  | .setVar index value => (.done, s.setVar index value)
  | .setEntry index key value => (.done, s.setEntry index key value)
  | .newToken maxSupply unit description =>
    let (answer, next) := s.newToken maxSupply unit description
    (.ofExcept .index answer, next)
  | .deposit index holder amount =>
    let (answer, next) := s.deposit index holder amount
    (.ofExcept (fun _ => .done) answer, next)
  | .transfer index source target amount =>
    let (answer, next) := s.transfer index source target amount
    (.ofExcept (fun _ => .done) answer, next)

/-! ### What a store reads as after its updates -/

variable {s : Store}

theorem view_put_var (s : Store) (index : SlotIndex) (value : Value) :
    (s.put (.var index value)).view = s.view.update (.var index value) := by
  ext1
  case var =>
    funext i
    exact OrderedMap.get?_insert ..
  all_goals rfl

theorem view_put_entry (s : Store) (index : SlotIndex) (key value : Value) :
    (s.put (.entry index key value)).view = s.view.update (.entry index key value) := by
  ext1
  case entry =>
    funext i k
    exact entry_setEntry s index i key k value
  all_goals rfl

theorem view_put_balance (s : Store) (index : TokenIndex) (holder : Address) (amount : Int64) :
    (s.put (.balance index holder amount)).view = s.view.update (.balance index holder amount) := by
  ext1
  case balance =>
    funext i a
    simp only [view, put, setBalance, View.update, OrderedMap.get?_insert, BalanceKey.mk.injEq]
    split <;> rfl
  all_goals rfl

theorem length_put_token {index : TokenIndex} (token : Token)
    (h : index.toNat ≤ s.tokens.length) :
    (s.put (.token index token)).tokens.length = max s.tokens.length (index.toNat + 1) :=
  length_putToken token h

/-- Replacing a token leaves their number as it is. -/
theorem view_put_token {index : TokenIndex} (token : Token) (h : index.toNat < s.tokens.length) :
    (s.put (.token index token)).view = s.view.update (.token index token) := by
  have hlength : (s.put (.token index token)).tokens.length = s.tokens.length := by
    rw [length_put_token token (Nat.le_of_lt h)]
    omega
  ext1
  case token =>
    funext i
    exact getElem?_putToken token (Nat.le_of_lt h) i
  case tokenCount => exact congrArg UInt32.ofNat hlength
  all_goals rfl

/-- A token that is put behind the last one is counted without being told so. -/
theorem view_put_newToken (token : Token) (h : s.tokens.length + 1 < 4294967296) :
    (s.put (.token s.view.tokenCount token)).view =
      (s.view.update (.token s.view.tokenCount token)).update
        (.tokenCount (s.view.tokenCount + 1)) := by
  have hcount : s.view.tokenCount.toNat = s.tokens.length := tokenCount_view (by omega)
  have hlength : (s.put (.token s.view.tokenCount token)).tokens.length = s.tokens.length + 1 := by
    rw [length_put_token token hcount.le, hcount]
    omega
  ext1
  case token =>
    funext i
    exact getElem?_putToken token hcount.le i
  case tokenCount => exact (congrArg UInt32.ofNat hlength).trans (UInt32.ofNat_add ..)
  all_goals rfl

theorem view_foldl_put_ledger (hs : s.tokens.length < 4294967296) {descriptions : List String}
    {us : List Update} (h : s.view.LedgerWrites descriptions us) :
    (us.foldl put s).view = us.foldl View.update s.view ∧
      (us.foldl put s).tokens.length < 4294967296 := by
  have hcount := tokenCount_view hs
  cases h with
  | nothing => exact ⟨rfl, hs⟩
  | @newToken maxSupply unit description hdescription hmax hunit hroom =>
      rw [hcount] at hroom
      refine ⟨view_put_newToken _ hroom, ?_⟩
      have hlength := length_put_token ⟨maxSupply, unit, description, 0⟩ hcount.le
      exact hlength ▸ Nat.max_lt.mpr ⟨hs, by omega⟩
  | @deposit i token holder amount balance htoken hamount hsupply hbalance =>
      have hi : i.toNat < s.tokens.length := by
        have hlt := (dense_view hs i).mp (by simp [htoken])
        rwa [UInt32.lt_iff_toNat_lt, hcount] at hlt
      simp only [List.foldl_cons, List.foldl_nil, view_put_balance, view_put_token _ hi, true_and]
      have hlength := length_put_token { token with issued := token.issued + amount } hi.le
      exact hlength ▸ Nat.max_lt.mpr ⟨hs, by omega⟩
  | transfer htoken hamount hheld hcredited =>
      refine ⟨?_, hs⟩
      simp only [List.foldl_cons, List.foldl_nil, view_put_balance]
  | debit target htoken hamount hheld hfull => exact ⟨view_put_balance s _ _ _, hs⟩

/-- Updates of one of the known kinds change what a store reads as in the same way whether they
are made on the store or on the view of it. -/
theorem view_foldl_put (hs : s.tokens.length < 4294967296) {us : List Update}
    (h : s.view.Writes us) :
    (us.foldl put s).view = us.foldl View.update s.view ∧
      (us.foldl put s).tokens.length < 4294967296 := by
  cases h with
  | nothing => exact ⟨rfl, hs⟩
  | var index value => exact ⟨view_put_var s index value, hs⟩
  | entry index key value => exact ⟨view_put_entry s index key value, hs⟩
  | ledger h => exact view_foldl_put_ledger hs h

/-! ### Operations in place -/

theorem newToken_eq (hs : s.tokens.length < 4294967296) (maxSupply unit : Int64)
    (description : String) :
    s.newToken maxSupply unit description =
      ((s.view.newToken maxSupply unit description).answer,
        (s.view.newToken maxSupply unit description).updates.foldl put s) := by
  have hcount := tokenCount_view hs
  have hput : ∀ token, putToken s.tokens s.view.tokenCount token = s.tokens ++ [token] :=
    fun token => if_neg (by omega)
  rw [newToken, View.newToken]
  by_cases hinvalid : maxSupply.toInt ≤ 0 ∨ unit.toInt ≤ 0
  · rw [if_pos hinvalid, if_pos hinvalid]
    rfl
  · rw [if_neg hinvalid, if_neg hinvalid]
    simp only [hcount]
    by_cases hroom : s.tokens.length + 1 < 4294967296
    · rw [if_pos hroom, if_pos hroom]
      simp only [List.foldl_cons, List.foldl_nil, put, setToken, hput]
      rfl
    · rw [if_neg hroom, if_neg hroom]
      rfl

theorem deposit_eq (s : Store) (index : Int) (holder : Address) (amount : Int64) :
    s.deposit index holder amount =
      ((s.view.deposit index holder amount).answer,
        (s.view.deposit index holder amount).updates.foldl put s) := by
  rw [deposit, View.deposit]
  by_cases hamount : amount.toInt ≤ 0
  · rw [if_pos hamount, if_pos hamount]
    rfl
  · rw [if_neg hamount, if_neg hamount]
    cases s.view.knownToken index with
    | error e => rfl
    | ok known =>
        obtain ⟨i, token⟩ := known
        by_cases hsupply : token.issued.toInt + amount.toInt ≤ token.maxSupply.toInt
        · simp only [if_pos hsupply]
          cases int64? ((s.view.balance i holder).toInt + amount.toInt) <;> rfl
        · simp only [if_neg hsupply]
          rfl

/-- What a transfer reads between its two writes is what the store then holds. -/
theorem transfer_eq (s : Store) (index : Int) (source target : Address) (amount : Int64) :
    s.transfer index source target amount =
      ((s.view.transfer index source target amount).answer,
        (s.view.transfer index source target amount).updates.foldl put s) := by
  have hbetween : ∀ i held, (s.setBalance i source held).view =
      s.view.update (.balance i source held) := fun i held => view_put_balance s i source held
  rw [transfer, View.transfer]
  by_cases hamount : amount.toInt ≤ 0
  · rw [if_pos hamount, if_pos hamount]
    rfl
  · rw [if_neg hamount, if_neg hamount]
    cases s.view.knownToken index with
    | error e => rfl
    | ok known =>
        obtain ⟨i, token⟩ := known
        by_cases hheld : (s.view.balance i source).toInt < amount.toInt
        · simp only [if_pos hheld]
          rfl
        · simp only [if_neg hheld, hbetween]
          cases int64? (((s.view.update
            (.balance i source (s.view.balance i source - amount))).balance i target).toInt +
              amount.toInt) <;> rfl

theorem perform_eq (hs : s.tokens.length < 4294967296) (op : Operation) :
    s.perform op = ((s.view.respond op).1, (s.view.respond op).2.foldl put s) := by
  cases op with
  | newToken maxSupply unit description =>
      rw [perform, newToken_eq hs]
      rfl
  | deposit index holder amount =>
      rw [perform, deposit_eq]
      rfl
  | transfer index source target amount =>
      rw [perform, transfer_eq]
      rfl
  | _ => rfl

end Store

/-! ### Overlays beside a store that is changed at once -/

/-- An overlay above `base` that shows what `s` holds. -/
structure Overlay.Shows (base : Store) (o : Overlay) (s : Store) : Prop where
  base_eq : o.base = base.view
  view_eq : o.view = s.view
  length_lt : s.tokens.length < 4294967296

namespace Overlay.Shows

variable {base s : Store} {o : Overlay}

theorem record (h : o.Shows base s) {us : List Update} (hus : s.view.Writes us) :
    (o.record us).Shows base (us.foldl Store.put s) := by
  obtain ⟨hview, hlength⟩ := Store.view_foldl_put h.length_lt hus
  refine ⟨h.base_eq, ?_, hlength⟩
  rw [view_record, h.view_eq, hview]

theorem perform (h : o.Shows base s) (op : Operation) :
    (o.perform op).1 = (s.perform op).1 ∧ (o.perform op).2.Shows base (s.perform op).2 := by
  rw [Overlay.perform, Store.perform_eq h.length_lt, h.view_eq]
  exact ⟨rfl, h.record (s.view.writes_respond op)⟩

theorem performAll (h : o.Shows base s) (ops : List Operation) :
    (performAll Overlay.perform ops o).1 = (performAll Store.perform ops s).1 ∧
      (performAll Overlay.perform ops o).2.Shows base (performAll Store.perform ops s).2 := by
  induction ops generalizing o s with
  | nil => exact ⟨rfl, h⟩
  | cons op rest ih =>
      obtain ⟨hanswer, hnext⟩ := h.perform op
      obtain ⟨hanswers, hlast⟩ := ih hnext
      refine ⟨?_, hlast⟩
      simp only [ContractMachine.performAll, hanswer, hanswers]

/-- Committing the overlay makes the store read as the one that was changed at once. -/
theorem view_apply (h : o.Shows base s) : (base.apply o.writes).view = s.view := by
  have hoverlay : Overlay.mk base.view o.writes = o := by rw [← h.base_eq]
  have hdense : o.view.Dense := by
    rw [h.view_eq]
    exact Store.dense_view h.length_lt
  rw [← h.view_eq, Store.view_apply (by rwa [hoverlay]), hoverlay]

end Overlay.Shows

/-! ### Runs in place -/

/-- The state of a run that changes the store itself. -/
structure DirectMachine where
  registers : RegisterFile
  store : Store

namespace DirectMachine

/-- Perform the instruction at a position; what it writes, it writes to the store. -/
def step (env : Env) (position : Nat) (d : DirectMachine) (i : Instruction) :
    Except ExecError DirectMachine := do
  match ← i.eval env position d.store.view d.registers with
  | .result dest v =>
    let registers ← d.registers.set dest v position
    return { d with registers }
  | .updates updates => return { d with store := updates.foldl Store.put d.store }

/-- Perform instructions in order; the first of them is number `position`. -/
def runFrom (env : Env) :
    (position : Nat) → List Instruction → DirectMachine → Except ExecError DirectMachine
  | _, [], d => .ok d
  | position, i :: rest, d =>
    match d.step env position i with
    | .ok next => runFrom env (position + 1) rest next
    | .error e => .error e

/-- The machine after an operation on its store, or the error that a refusal becomes. -/
def ofLedger {α : Type} (position : Nat) (d : DirectMachine)
    (outcome : Except TokenError α × Store) : Except ExecError DirectMachine :=
  match outcome with
  | (.ok _, store) => .ok { d with store }
  | (.error e, _) => .error (.trap position (.token e))

variable {env : Env} {position : Nat} {d : DirectMachine}

theorem step_of_ledger {α : Type} {i : Instruction} {o : LedgerOutcome α}
    (h : i.eval env position d.store.view d.registers = Effect.ofLedger o position) :
    d.step env position i = d.ofLedger position (o.answer, o.updates.foldl Store.put d.store) := by
  rw [step, h, Effect.ofLedger]
  cases o.answer <;> rfl

/-- The instructions of the ledger do what the operations of a store do. -/
theorem step_newToken {max unit description : Register} {maxSupply size : Int64} {text : String}
    (hs : d.store.tokens.length < 4294967296)
    (hmax : d.registers.getAmount max position = .ok maxSupply)
    (hunit : d.registers.getAmount unit position = .ok size)
    (htext : d.registers.getText description position = .ok text) :
    d.step env position (.newToken max unit description) =
      d.ofLedger position (d.store.newToken maxSupply size text) := by
  rw [Store.newToken_eq hs]
  apply step_of_ledger
  simp only [Instruction.eval, hmax, hunit, htext]
  rfl

theorem step_deposit {token amount holder : Register} {index : Int32} {units : Int64}
    {account : Address} (htoken : d.registers.getInt32 token position = .ok index)
    (hamount : d.registers.getAmount amount position = .ok units)
    (hholder : d.registers.getAccount .deposit holder position = .ok account) :
    d.step env position (.deposit token amount holder) =
      d.ofLedger position (d.store.deposit index.toInt account units) := by
  rw [Store.deposit_eq]
  apply step_of_ledger
  simp only [Instruction.eval, Instruction.opcode, htoken, hamount, hholder]
  rfl

theorem step_transfer {source token amount target : Register} {index : Int32} {units : Int64}
    {giver taker : Address} (hsource : d.registers.getAccount .transfer source position = .ok giver)
    (htoken : d.registers.getInt32 token position = .ok index)
    (hamount : d.registers.getAmount amount position = .ok units)
    (htarget : d.registers.getAccount .transfer target position = .ok taker) :
    d.step env position (.transfer source token amount target) =
      d.ofLedger position (d.store.transfer index.toInt giver taker units) := by
  rw [Store.transfer_eq]
  apply step_of_ledger
  simp only [Instruction.eval, Instruction.opcode, hsource, htoken, hamount, htarget]
  rfl

end DirectMachine

namespace Function

/-- Run a function on the store itself. -/
def runInPlace (f : Function) (env : Env) (capacity : Nat) (s : Store) (args : List Value) :
    Except ExecError DirectMachine :=
  match f.seed capacity args with
  | .ok registers => DirectMachine.runFrom env 0 f.code ⟨registers, s⟩
  | .error e => .error e

/-- The store that a call leaves; a failed call leaves it as it was. -/
def storeAfter (f : Function) (env : Env) (capacity : Nat) (s : Store) (args : List Value) :
    Store :=
  match f.call env capacity s args with
  | .ok (_, next) => next
  | .error _ => s

end Function

/-- Two computations that fail alike or succeed with related results. -/
inductive Alike {ε α β : Type} (R : α → β → Prop) : Except ε α → Except ε β → Prop where
  | ok {a : α} {b : β} (h : R a b) : Alike R (.ok a) (.ok b)
  | error (e : ε) : Alike R (.error e) (.error e)

/-- The machines have the same registers, and the overlay of one shows the store of the other. -/
structure Machine.Mirrors (base : Store) (m : Machine) (d : DirectMachine) : Prop where
  registers_eq : m.registers = d.registers
  overlay : m.overlay.Shows base d.store

namespace Machine.Mirrors

variable {base : Store} {m : Machine} {d : DirectMachine} {env : Env}

theorem step (h : m.Mirrors base d) (position : Nat) (i : Instruction) :
    Alike (Mirrors base) (m.step env position i) (d.step env position i) := by
  rw [Machine.step, DirectMachine.step, h.registers_eq, h.overlay.view_eq]
  cases heval : i.eval env position d.store.view d.registers with
  | error e => exact .error e
  | ok effect =>
      cases effect with
      | result dest v =>
          simp only [bind, Except.bind]
          cases d.registers.set dest v position with
          | error e => exact .error e
          | ok registers => exact .ok ⟨rfl, h.overlay⟩
      | updates us =>
          have hwrites : d.store.view.Writes us := (Instruction.eval_eq_ok_iff.mp heval).writes
          exact .ok ⟨rfl, h.overlay.record hwrites⟩

theorem runFrom (h : m.Mirrors base d) (position : Nat) (code : List Instruction) :
    Alike (Mirrors base) (m.runFrom env position code) (d.runFrom env position code) := by
  induction code generalizing position m d with
  | nil => exact .ok h
  | cons i rest ih =>
      have hstep : Alike (Mirrors base) (m.step env position i) (d.step env position i) :=
        h.step position i
      rw [Machine.runFrom, DirectMachine.runFrom]
      generalize m.step env position i = buffered at hstep ⊢
      generalize d.step env position i = direct at hstep ⊢
      cases hstep with
      | ok hnext => exact ih hnext (position + 1)
      | error e => exact .error e

end Machine.Mirrors

theorem Function.run_alike {s : Store} (hs : s.tokens.length < 4294967296) (f : Function)
    (env : Env) (capacity : Nat) (args : List Value) :
    Alike (Machine.Mirrors s) (f.run env capacity s.view args)
      (f.runInPlace env capacity s args) := by
  rw [run, runInPlace]
  cases f.seed capacity args with
  | error e => exact .error e
  | ok registers =>
      have hstart : Machine.Mirrors s ⟨registers, { base := s.view }⟩ ⟨registers, s⟩ :=
        ⟨rfl, rfl, rfl, hs⟩
      exact hstart.runFrom 0 f.code

/-- Every sequence of operations has the same answers on an overlay as in place, and committing
the overlay leaves the same state. So a call that fails leaves the store as it was, and one that
succeeds leaves what its instructions would have left in place. -/
theorem Store.overlay_refines_in_place (s : Store) (hs : s.tokens.length < 4294967296) :
    (∀ ops : List Operation,
      let buffered := performAll Overlay.perform ops { base := s.view }
      let direct := performAll perform ops s
      buffered.1 = direct.1 ∧ (s.apply buffered.2.writes).view = direct.2.view) ∧
    ∀ (f : Function) (env : Env) (capacity : Nat) (args : List Value),
      match f.runInPlace env capacity s args with
      | .ok direct =>
        (∃ next, f.call env capacity s args = .ok (direct.registers, next)) ∧
          (f.storeAfter env capacity s args).view = direct.store.view
      | .error e =>
        f.call env capacity s args = .error e ∧
          (f.storeAfter env capacity s args).view = s.view := by
  refine ⟨fun ops => ?_, fun f env capacity args => ?_⟩
  · have hstart : Overlay.Shows s { base := s.view } s := ⟨rfl, rfl, hs⟩
    obtain ⟨hanswers, hlast⟩ := hstart.performAll ops
    exact ⟨hanswers, hlast.view_apply⟩
  · have halike := f.run_alike hs env capacity args
    have hcall : f.call env capacity s args =
        (f.run env capacity s.view args).map fun m => (m.registers, s.apply m.overlay.writes) := by
      rw [Function.call]
      cases f.run env capacity s.view args <;> rfl
    rw [Function.storeAfter, hcall]
    generalize f.run env capacity s.view args = buffered at halike ⊢
    generalize f.runInPlace env capacity s args = direct at halike ⊢
    cases halike with
    | error e => exact ⟨rfl, rfl⟩
    | @ok m direct hlast =>
        refine ⟨⟨s.apply m.overlay.writes, ?_⟩, hlast.overlay.view_apply⟩
        rw [← hlast.registers_eq]
        rfl

/-- A transfer to oneself and one that fails, of a token that the overlay itself has defined. -/
theorem Store.overlay_refines_self_transfer :
    let s : Store := { tokens := [⟨100, 1, "gold", 0⟩] }
    let holder : Address := ⟨List.replicate 26 1, rfl⟩
    let other : Address := ⟨List.replicate 26 2, rfl⟩
    let ops : List Operation :=
      [.newToken 50 1 "silver", .deposit 1 holder 7, .transfer 1 holder holder 7,
        .transfer 1 holder other 9, .balanceOf 1 holder]
    let buffered := performAll Overlay.perform ops { base := s.view }
    s.tokens.length < 4294967296 ∧
      (performAll perform ops s).1 = [.index 1, .done, .done,
        .refused (.insufficientBalance 7 9), .amount 7] ∧
      buffered.1 = (performAll perform ops s).1 ∧
      (s.apply buffered.2.writes).view = (performAll perform ops s).2.view := by
  intro s holder other ops buffered
  have hs : s.tokens.length < 4294967296 := by decide
  have hanswers : (performAll perform ops s).1 = [.index 1, .done, .done,
      .refused (.insufficientBalance 7 9), .amount 7] := by decide +kernel
  obtain ⟨hbuffered, -⟩ := overlay_refines_in_place s hs
  exact ⟨hs, hanswers, hbuffered ops⟩

end ContractMachine
