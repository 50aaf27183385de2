import ContractMachine.Proofs.Pool.Rules

/-! The bodies of the pool's triggers follow its rules. Bodies are run symbolically, instruction by
instruction, on any state that shows a book. A long body is cut into phases, of which the first is
here. -/

namespace ContractMachine.Pool

open Machine

/-! ### Reading the state -/

theorem stateVar_contract (context : Context) (position : Nat) :
    Env.stateVar ⟨contract, context⟩ 0 position = .ok ⟨0, .address⟩ ∧
    Env.stateVar ⟨contract, context⟩ 1 position = .ok ⟨1, .tokenId⟩ ∧
    Env.stateVar ⟨contract, context⟩ 2 position = .ok ⟨2, .tokenId⟩ ∧
    Env.stateVar ⟨contract, context⟩ 3 position = .ok ⟨3, .tokenId⟩ ∧
    Env.stateVar ⟨contract, context⟩ 4 position = .ok ⟨4, .boolean⟩ ∧
    Env.stateVar ⟨contract, context⟩ 5 position = .ok ⟨5, .amount⟩ ∧
    Env.stateVar ⟨contract, context⟩ 6 position = .ok ⟨6, .amount⟩ ∧
    Env.stateVar ⟨contract, context⟩ 7 position = .ok ⟨7, .amount⟩ ∧
    Env.stateVar ⟨contract, context⟩ 8 position = .ok ⟨8, .amount⟩ ∧
    Env.stateVar ⟨contract, context⟩ 9 position = .ok ⟨9, .amount⟩ :=
  ⟨rfl, rfl, rfl, rfl, rfl, rfl, rfl, rfl, rfl, rfl⟩

theorem stateMap_contract (context : Context) (position : Nat) :
    Env.stateMap ⟨contract, context⟩ 0 position = .ok ⟨0, .address, .amount⟩ ∧
    Env.stateMap ⟨contract, context⟩ 1 position = .ok ⟨1, .address, .amount⟩ ∧
    Env.stateMap ⟨contract, context⟩ 2 position = .ok ⟨2, .address, .amount⟩ :=
  ⟨rfl, rfl, rfl⟩

theorem orZero_some (v : Value) (type : DataType) (position : Nat) :
    Value.orZero (some v) type position = .ok v :=
  rfl

theorem orZero_amount (stored : Option Value) (position : Nat) :
    Value.orZero stored .amount position = .ok (stored.getD (.amount 0)) :=
  Value.orZero_eq_ok rfl stored position

namespace Book

variable {b : Book}

theorem Shows.reads {v : View} (h : b.Shows v) :
    v.var 0 = some (.address b.maker) ∧ v.var 4 = some (.boolean b.enabled) ∧
    v.var 5 = some (.amount (.ofInt b.minimum)) ∧
    v.var 6 = some (.amount (.ofInt (b.reserve .a))) ∧
    v.var 7 = some (.amount (.ofInt (b.reserve .b))) ∧
    v.var 8 = some (.amount (.ofInt b.supply)) ∧
    v.var 9 = some (.amount (.ofInt (b.reserve .liquidity))) ∧
    (∀ account, (v.entry 0 (.address account)).getD (.amount 0) =
      .amount (.ofInt (b.escrow .a account))) ∧
    (∀ account, (v.entry 1 (.address account)).getD (.amount 0) =
      .amount (.ofInt (b.escrow .b account))) ∧
    (∀ account, (v.entry 2 (.address account)).getD (.amount 0) =
      .amount (.ofInt (b.escrow .liquidity account))) := by
  have hslots := h.slots
  simp only [Book.slots, List.forall_mem_cons] at hslots
  obtain ⟨hmaker, -, -, -, henabled, hminimum, hA, hB, hsupply, hbudget, -⟩ := hslots
  exact ⟨hmaker, henabled, hminimum, hA, hB, hsupply, hbudget, h.escrow .a, h.escrow .b,
    h.escrow .liquidity⟩

theorem Bounded.toInt_ofInt (h : b.Bounded) :
    (Int64.ofInt b.minimum).toInt = b.minimum ∧ (Int64.ofInt b.supply).toInt = b.supply ∧
    (∀ t, (Int64.ofInt (b.reserve t)).toInt = b.reserve t) ∧
    ∀ t account, (Int64.ofInt (b.escrow t account)).toInt = b.escrow t account :=
  ⟨h.minimum.toInt_ofInt, h.supply.toInt_ofInt, fun t => (h.reserve t).toInt_ofInt,
    fun t account => (h.escrow t account).toInt_ofInt⟩

theorem bitBound_of_isAmount {n : Int} (h : IsAmount n) : BitBound n 64 :=
  h.toInt_ofInt ▸ inferInstance

end Book

theorem Posting.update_eq :
    (∀ account, (maker account).update = .var 0 (.address account)) ∧
    enable.update = .var 4 (.boolean true) ∧
    (∀ n, (supply n).update = .var 8 (.amount (.ofInt n))) ∧
    (∀ n, (reserve .a n).update = .var 6 (.amount (.ofInt n))) ∧
    (∀ n, (reserve .b n).update = .var 7 (.amount (.ofInt n))) ∧
    (∀ n, (reserve .liquidity n).update = .var 9 (.amount (.ofInt n))) ∧
    (∀ account n, (escrow .a account n).update =
      .entry 0 (.address account) (.amount (.ofInt n))) ∧
    (∀ account n, (escrow .b account n).update =
      .entry 1 (.address account) (.amount (.ofInt n))) ∧
    ∀ account n, (escrow .liquidity account n).update =
      .entry 2 (.address account) (.amount (.ofInt n)) :=
  ⟨fun _ => rfl, rfl, fun _ => rfl, fun _ => rfl, fun _ => rfl, fun _ => rfl, fun _ _ => rfl,
    fun _ _ => rfl, fun _ _ => rfl⟩

/-! ### Running the bodies -/

namespace Symbolic

attribute [scoped simp] stateVar_contract stateMap_contract orZero_some orZero_amount
  Overlay.view_record Overlay.record_record View.update Value.type Value.account?
  RegisterFile.getBool RegisterFile.getTimestamp RegisterFile.getDataType RegisterFile.getTyped
  RegisterFile.getAccount RegisterFile.getBigInteger Context.party? encodable_of_bitBound
  assign_ofValues Nat.log2_def Posting.update_eq List.getElem?_append List.getElem?_cons_zero

end Symbolic

open Symbolic

set_option maxRecDepth 4000

variable {b : Book} {o : Overlay} {context : Context} {Q : Overlay → Prop}

/-- Opening entries: the variables that a deployment sets. -/
theorem completes_init (tokenA tokenB liquidityToken : TokenId) (minimum : Int64) :
    Completes ⟨contract, context⟩ init.code
        ⟨.ofValues 64
          [.tokenId tokenA, .tokenId tokenB, .tokenId liquidityToken, .amount minimum], o⟩
        (fun m => Q m.overlay) ↔
      ∃ maker, context.signer = some maker ∧
        Q (o.record
          [.var tokenAVar (.tokenId tokenA), .var tokenBVar (.tokenId tokenB),
            .var liquidityTokenVar (.tokenId liquidityToken),
            .var minimumLiquidityVar (.amount minimum), .var makerVar (.address maker),
            .var swapEnabledVar (.boolean false), .var reserveAVar (.amount 0),
            .var reserveBVar (.amount 0), .var totalSupplyVar (.amount 0),
            .var liquidityBudgetVar (.amount 0)]) := by
  conv => lhs; arg 2; cbv
  simp [tokenAVar, tokenBVar, liquidityTokenVar, minimumLiquidityVar, makerVar, swapEnabledVar,
    reserveAVar, reserveBVar, totalSupplyVar, liquidityBudgetVar]

theorem completes_depositEscrow (hb : b.Shows o.view) (id : FunctionId) (t : Asset)
    (account : Address) (amount : Int64) :
    Completes ⟨contract, context⟩ (depositEscrow id t.tokenVar t.escrowMap).code
        ⟨.ofValues 64 [.address account, .amount amount], o⟩ (fun m => Q m.overlay) ↔
      0 < amount.toInt ∧ b.escrow t account + amount.toInt < 9223372036854775808 ∧
        Q (o.record ([Posting.escrow t account (b.escrow t account + amount.toInt)].map
          Posting.update)) := by
  cases t <;> conv => lhs; arg 2; cbv
  all_goals simp [hb.reads, hb.bounded.toInt_ofInt]

theorem completes_withdrawEscrow (hb : b.Shows o.view) (id : FunctionId) (t : Asset)
    (account : Address) (amount : Int64) :
    Completes ⟨contract, context⟩ (withdrawEscrow id t.tokenVar t.escrowMap).code
        ⟨.ofValues 64 [.address account, .amount amount], o⟩ (fun m => Q m.overlay) ↔
      0 < amount.toInt ∧ amount.toInt ≤ b.escrow t account ∧
        Q (o.record ([Posting.escrow t account (b.escrow t account - amount.toInt)].map
          Posting.update)) := by
  cases t <;> conv => lhs; arg 2; cbv
  all_goals simp [hb.reads, hb.bounded.toInt_ofInt]

theorem completes_fundLiquidity (hb : b.Shows o.view) (account : Address) (amount : Int64) :
    Completes ⟨contract, context⟩ fundLiquidity.code
        ⟨.ofValues 64 [.address account, .amount amount], o⟩ (fun m => Q m.overlay) ↔
      account = b.maker ∧ 0 < amount.toInt ∧
        b.reserve .liquidity + amount.toInt < 9223372036854775808 ∧
        Q (o.record ([Posting.reserve .liquidity (b.reserve .liquidity + amount.toInt)].map
          Posting.update)) := by
  conv => lhs; arg 2; cbv
  simp [hb.reads, hb.bounded.toInt_ofInt]

theorem completes_supersede (hb : b.Shows o.view) (maker : Address) :
    Completes ⟨contract, context⟩ supersede.code ⟨.ofValues 64 [.address maker], o⟩
        (fun m => Q m.overlay) ↔
      context.signer = some b.maker ∧ Q (o.record ([Posting.maker maker].map Posting.update)) := by
  conv => lhs; arg 2; cbv
  simp [hb.reads]

/-! ### The first checks of a call -/

/-- The pool is open, and the deadline is not past. -/
def gate (next deadline : Register) : List Instruction :=
  [.getVar swapEnabledVar next, .assertTrue next, .loadTimestamp (next + 1),
    .assertNotExpired (next + 1) deadline]

theorem completes_gate (hb : b.Shows o.view) {values : List Value} {next deadline : Register}
    {limit : Int64} {P : Machine → Prop} (hnext : values.length = next.toNat)
    (hroom : next.toNat < 60) (hdeadline : values[deadline.toNat]? = some (.timestamp limit)) :
    Completes ⟨contract, context⟩ (gate next deadline) ⟨.ofValues 64 values, o⟩ P ↔
      b.enabled = true ∧ ∃ now, context.timestamp = some now ∧ now.toInt ≤ limit.toInt ∧
        P ⟨.ofValues 64 (values ++ [.boolean b.enabled, .timestamp now]), o⟩ := by
  have hsecond : (next + 1).toNat = next.toNat + 1 := by
    rw [UInt8.toNat_add]
    exact Nat.mod_eq_of_lt (by simp; omega)
  have hlt : deadline.toNat < next.toNat := by
    obtain ⟨hlt, -⟩ := List.getElem?_eq_some_iff.mp hdeadline
    omega
  have hcapacity : next.toNat < 64 ∧ next.toNat + 1 < 64 ∧ deadline.toNat < 64 := by omega
  simp [-getElem?_pos, gate, swapEnabledVar, hb.reads, hdeadline, hnext, hsecond, hlt, hcapacity]

end ContractMachine.Pool
