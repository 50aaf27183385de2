import ContractMachine.Proofs.Execution
import ContractMachine.Proofs.State.Numbering

/-! When the token ledger grants a request, and runs of the instructions that make requests. -/

namespace ContractMachine

namespace LedgerOutcome

variable {α : Type} {P : List Update → Prop}

/-- The request is granted, and its updates have the property. -/
def Grants (o : LedgerOutcome α) (P : List Update → Prop) : Prop :=
  ∃ a, o.answer = .ok a ∧ P o.updates

theorem grants_of_answer {o : LedgerOutcome α} {a : α} (h : o.answer = .ok a) :
    o.Grants (· = o.updates) :=
  ⟨a, h, rfl⟩

@[simp] theorem grants_refuse (e : TokenError) : (refuse e : LedgerOutcome α).Grants P = False := by
  simp [Grants, refuse]

@[simp] theorem grants_ok (us : List Update) (a : α) :
    (LedgerOutcome.mk us (.ok a)).Grants P = P us := by
  simp [Grants]

@[simp] theorem grants_error (us : List Update) (e : TokenError) :
    (LedgerOutcome.mk us (.error e) : LedgerOutcome α).Grants P = False := by
  simp [Grants]

@[simp] theorem grants_ite (c : Prop) [Decidable c] (o : LedgerOutcome α) (e : TokenError) :
    (if c then o else refuse e).Grants P = (c ∧ o.Grants P) := by
  by_cases h : c <;> simp [h]

@[simp] theorem grants_ite_refuse (c : Prop) [Decidable c] (o : LedgerOutcome α) (e : TokenError) :
    (if c then refuse e else o).Grants P = (¬c ∧ o.Grants P) := by
  by_cases h : c <;> simp [h]

theorem succeeds_ofLedger (o : LedgerOutcome α) (position : Nat) (Q : Effect → Prop) :
    Succeeds (Effect.ofLedger o position) Q = o.Grants fun us => Q (.updates us) := by
  rw [Effect.ofLedger, Grants]
  cases o.answer <;> simp

end LedgerOutcome

theorem tokenIndex?_eq_some_iff {n : Int} {i : TokenIndex} :
    tokenIndex? n = some i ↔ n = i.toNat := by
  have hi := i.toNat_lt
  rw [tokenIndex?]
  constructor
  · intro h
    split at h
    · rename_i hn
      obtain rfl : UInt32.ofNat n.toNat = i := Option.some.inj h
      rw [toNat_ofNat_tokenIndex (by omega)]
      omega
    · cases h
  · rintro rfl
    rw [if_pos (by omega), Int.toNat_natCast, UInt32.ofNat_toNat]

namespace View

variable {P : List Update → Prop}

@[simp] theorem grants_newToken (v : View) (maxSupply unit : Int64) (description : String) :
    (v.newToken maxSupply unit description).Grants P =
      (0 < maxSupply.toInt ∧ 0 < unit.toInt ∧ v.tokenCount.toNat + 1 < 4294967296 ∧
        P [.token v.tokenCount ⟨maxSupply, unit, description, 0⟩,
          .tokenCount (v.tokenCount + 1)]) := by
  rw [newToken]
  simp [and_assoc]

theorem grants_knownToken {α : Type} (v : View) (index : Int)
    (o : TokenIndex → Token → LedgerOutcome α) :
    LedgerOutcome.Grants (match v.knownToken index with
      | .error e => .refuse e
      | .ok (i, token) => o i token) P =
      Present (tokenIndex? index) fun i => Present (v.token i) fun token =>
        (o i token).Grants P := by
  rw [knownToken]
  cases tokenIndex? index with
  | none => simp
  | some i => cases h : v.token i <;> simp [h]

@[simp] theorem grants_deposit (v : View) (index : Int) (holder : Address) (amount : Int64) :
    (v.deposit index holder amount).Grants P =
      (0 < amount.toInt ∧ Present (tokenIndex? index) fun i => Present (v.token i) fun token =>
        token.issued.toInt + amount.toInt ≤ token.maxSupply.toInt ∧
          Present (int64? ((v.balance i holder).toInt + amount.toInt)) fun balance =>
            P [.token i { token with issued := token.issued + amount },
              .balance i holder balance]) := by
  rw [deposit, LedgerOutcome.grants_ite_refuse, Int.not_le]
  congr 1
  refine (v.grants_knownToken index _).trans ?_
  congr 1
  funext i
  congr 1
  funext token
  cases int64? ((v.balance i holder).toInt + amount.toInt) <;> simp

@[simp] theorem grants_transfer (v : View) (index : Int) (source target : Address)
    (amount : Int64) :
    (v.transfer index source target amount).Grants P =
      (0 < amount.toInt ∧ Present (tokenIndex? index) fun i => Present (v.token i) fun _ =>
        amount.toInt ≤ (v.balance i source).toInt ∧
          Present (int64? (((v.update (.balance i source (v.balance i source - amount))).balance i
            target).toInt + amount.toInt)) fun credited =>
              P [.balance i source (v.balance i source - amount), .balance i target credited]) := by
  rw [transfer, LedgerOutcome.grants_ite_refuse, Int.not_le]
  congr 1
  refine (v.grants_knownToken index _).trans ?_
  congr 1
  funext i
  congr 1
  funext token
  simp only [LedgerOutcome.grants_ite_refuse, Int.not_lt]
  cases int64? (((v.update (.balance i source (v.balance i source - amount))).balance i
    target).toInt + amount.toInt) <;> simp

end View

namespace Machine

variable {env : Env} {rest : List Instruction} {m : Machine} {P : Machine → Prop}

@[simp] theorem completes_loadLastTokenIndex (dest : Register) :
    Completes env (.loadLastTokenIndex dest :: rest) m P =
      ∃ last : Int32, (0 ≤ last.toInt ∧ last.toInt + 1 = m.overlay.view.tokenCount.toNat) ∧
        Succeeds (m.assign dest (.int32 last)) fun next => Completes env rest next P := by
  simp only [← @View.lastTokenIndex_eq_ok_iff _ _ 0]
  cases h : m.overlay.view.lastTokenIndex 0 <;>
    simp [completes_cons, step, assign, Instruction.eval, h]

@[simp] theorem completes_newToken (max unit description : Register) :
    Completes env (.newToken max unit description :: rest) m P =
      Succeeds (m.registers.getAmount max 0) fun maxSupply =>
        Succeeds (m.registers.getAmount unit 0) fun size =>
          Succeeds (m.registers.getText description 0) fun text =>
            (m.overlay.view.newToken maxSupply size text).Grants fun us =>
              Completes env rest { m with overlay := m.overlay.record us } P := by
  simp only [completes_cons, step, Instruction.eval, succeeds_bind,
    LedgerOutcome.succeeds_ofLedger, succeeds_pure]

@[simp] theorem completes_deposit (token amount holder : Register) :
    Completes env (.deposit token amount holder :: rest) m P =
      Succeeds (m.registers.getInt32 token 0) fun index =>
        Succeeds (m.registers.getAmount amount 0) fun units =>
          Succeeds (m.registers.getAccount (Instruction.deposit token amount holder).opcode holder
            0)
            fun account => (m.overlay.view.deposit index.toInt account units).Grants fun us =>
              Completes env rest { m with overlay := m.overlay.record us } P := by
  simp only [completes_cons, step, Instruction.eval, succeeds_bind,
    LedgerOutcome.succeeds_ofLedger, succeeds_pure]

@[simp] theorem completes_transfer (source token amount target : Register) :
    Completes env (.transfer source token amount target :: rest) m P =
      Succeeds (m.registers.getAccount
        (Instruction.transfer source token amount target).opcode source 0) fun giver =>
          Succeeds (m.registers.getInt32 token 0) fun index =>
            Succeeds (m.registers.getAmount amount 0) fun units =>
              Succeeds (m.registers.getAccount
                (Instruction.transfer source token amount target).opcode target 0) fun taker =>
                  (m.overlay.view.transfer index.toInt giver taker units).Grants fun us =>
                    Completes env rest { m with overlay := m.overlay.record us } P := by
  simp only [completes_cons, step, Instruction.eval, succeeds_bind,
    LedgerOutcome.succeeds_ofLedger, succeeds_pure]

end Machine

end ContractMachine
