import ContractMachine.Proofs.Calls
import ContractMachine.Proofs.Pool.LiquidityBodies
import ContractMachine.Proofs.Pool.TradeBodies

/-! What one call can do to a pool. A call succeeds if and only if the rules let it through, and
then the store is that of the book with the entries of the rule posted. -/

namespace ContractMachine.Pool

/-! ### Which body a call runs -/

/-- The part that a token plays: of several with the same id, the first. -/
def Book.role? (b : Book) (token : TokenId) : Option Asset :=
  Asset.all.find? fun t => b.token t = token

theorem Book.token_of_role? {b : Book} {token : TokenId} {t : Asset} (h : b.role? token = some t) :
    b.token t = token := by
  simpa using List.find?_some h

def depositTrigger : Asset → Function :=
  Asset.choose (depositEscrow 1 tokenAVar escrowAMap) (depositEscrow 2 tokenBVar escrowBMap)
    fundLiquidity

def withdrawTrigger : Asset → Function :=
  Asset.choose (withdrawEscrow 4 tokenAVar escrowAMap) (withdrawEscrow 5 tokenBVar escrowBMap)
    (withdrawEscrow 6 liquidityTokenVar escrowLiquidityMap)

theorem kind_depositTrigger (t : Asset) : (depositTrigger t).kind = .onDeposit t.tokenVar := by
  cases t <;> rfl

theorem kind_withdrawTrigger (t : Asset) : (withdrawTrigger t).kind = .onWithdraw t.tokenVar := by
  cases t <;> rfl

theorem triggers_valid : valid.contract.triggers =
    init :: Asset.all.map depositTrigger ++ Asset.all.map withdrawTrigger := rfl

def functions : List Function :=
  [supersede, setSwap, addLiquidity, removeLiquidity, swapForExact, swapExact]

theorem functions_valid : valid.contract.functions = functions := rfl

section Dispatch

variable {b : Book} {s : Store}

theorem Book.Shows.tokenVar {v : View} (h : b.Shows v) (t : Asset) :
    v.var t.tokenVar = some (.tokenId (b.token t)) := by
  have hslots := h.slots
  simp only [Book.slots, List.forall_mem_cons] at hslots
  obtain ⟨-, hA, hB, hliquidity, -⟩ := hslots
  cases t with
  | a => exact hA
  | b => exact hB
  | liquidity => exact hliquidity

/-- Of triggers that each watch the token of their part, a token is watched by that of its part. -/
theorem find?_watching (h : b.Shows s.view) {token : TokenId} {trigger : Asset → Function}
    {watches : Function → Bool}
    (hwatches : ∀ t, watches (trigger t) = (s.view.var t.tokenVar == some (.tokenId token))) :
    (Asset.all.map trigger).find? watches = (b.role? token).map trigger := by
  rw [List.find?_map, Book.role?]
  congr 2
  funext t
  rw [Function.comp_apply, hwatches, h.tokenVar t, beq_eq_decide]
  simp

theorem find?_idle {trigger : Asset → Function} {watches : Function → Bool}
    (h : ∀ t, watches (trigger t) = false) : (Asset.all.map trigger).find? watches = none := by
  simp [h]

theorem tokenTrigger?_deposit (h : b.Shows s.view) {watched : FunctionKind → Option SlotIndex}
    (hinit : watched .onInit = none) (hdeposit : ∀ var, watched (.onDeposit var) = some var)
    (hwithdraw : ∀ var, watched (.onWithdraw var) = none) (token : TokenId) :
    (Deployment.mk valid s).tokenTrigger? watched token = (b.role? token).map depositTrigger := by
  have hkind : init.kind = .onInit := rfl
  rw [Deployment.tokenTrigger?, triggers_valid, List.cons_append,
    List.find?_cons_of_neg (by simp [hkind, hinit]), List.find?_append,
    find?_watching h fun t => by rw [kind_depositTrigger, hdeposit]; rfl,
    find?_idle fun t => by rw [kind_withdrawTrigger, hwithdraw], Option.or_none]

theorem tokenTrigger?_withdraw (h : b.Shows s.view) {watched : FunctionKind → Option SlotIndex}
    (hinit : watched .onInit = none) (hdeposit : ∀ var, watched (.onDeposit var) = none)
    (hwithdraw : ∀ var, watched (.onWithdraw var) = some var) (token : TokenId) :
    (Deployment.mk valid s).tokenTrigger? watched token = (b.role? token).map withdrawTrigger := by
  have hkind : init.kind = .onInit := rfl
  rw [Deployment.tokenTrigger?, triggers_valid, List.cons_append,
    List.find?_cons_of_neg (by simp [hkind, hinit]), List.find?_append,
    find?_idle fun t => by rw [kind_depositTrigger, hdeposit],
    find?_watching h fun t => by rw [kind_withdrawTrigger, hwithdraw]; rfl, Option.none_or]

theorem call_eq_ok_iff {f : Function} (hparams : f.params.length ≤ 64) {context : Context}
    {args : List Value} {next : Deployment Store} :
    (Deployment.mk valid s).call f context args = .ok next ↔
      f.Accepts args ∧
        Machine.Completes ⟨contract, context⟩ f.code ⟨.ofValues 64 args, { base := s.view }⟩
          fun m => (Deployment.mk valid s).LeadsTo next m.overlay :=
  Deployment.call_eq_ok_iff hparams (by omega)

theorem deposit_eq_ok_iff (h : b.Shows s.view) {token : TokenId} {account : Address}
    {amount : Int64} {context : Context} {next : Deployment Store} :
    (Deployment.mk valid s).deposit token account amount context = .ok next ↔
      ∃ t, b.role? token = some t ∧ (Deployment.mk valid s).call (depositTrigger t) context
        [.address account, .amount amount] = .ok next := by
  rw [Deployment.deposit, Deployment.runTokenTrigger,
    tokenTrigger?_deposit h rfl (fun _ => rfl) (fun _ => rfl)]
  cases b.role? token <;> simp

theorem withdraw_eq_ok_iff (h : b.Shows s.view) {token : TokenId} {account : Address}
    {amount : Int64} {context : Context} {next : Deployment Store} :
    (Deployment.mk valid s).withdraw token account amount context = .ok next ↔
      ∃ t, b.role? token = some t ∧ (Deployment.mk valid s).call (withdrawTrigger t) context
        [.address account, .amount amount] = .ok next := by
  rw [Deployment.withdraw, Deployment.runTokenTrigger,
    tokenTrigger?_withdraw h rfl (fun _ => rfl) (fun _ => rfl)]
  cases b.role? token <;> simp

theorem invoke_eq_ok_iff {id : FunctionId} {context : Context} {args : List Value}
    {next : Deployment Store} :
    (Deployment.mk valid s).invoke id context args = .ok next ↔
      ∃ f ∈ functions, f.id = id ∧
        (Deployment.mk valid s).call f context args = .ok next :=
  Deployment.invoke_eq_ok_iff (functions_valid ▸ by decide)

end Dispatch

/-! ### Calls and rules -/

/-- A call that the rules let through, and the entries that it posts. -/
inductive Book.Permits (b : Book) : Call → List Posting → Prop where
  | supersede {context maker} (signer : context.signer = some b.maker) :
      b.Permits (.invoke supersedeId context [.address maker]) [.maker maker]
  | setSwap {context amountA amountB shares} (h : b.Opens context amountA amountB shares) :
      b.Permits (.invoke setSwapId context [.amount amountA, .amount amountB])
        (b.opening amountA.toInt amountB.toInt shares.toInt)
  | addLiquidity {context offeredA offeredB minA minB deadline account amountA amountB shares}
      (h : b.Adds context offeredA offeredB minA minB deadline account amountA amountB shares) :
      b.Permits
        (.invoke addLiquidityId context
          [.amount offeredA, .amount offeredB, .amount minA, .amount minB, .timestamp deadline])
        (b.adding account amountA.toInt amountB.toInt shares.toInt)
  | removeLiquidity {context shares minA minB deadline account amountA amountB}
      (h : b.Removes context shares minA minB deadline account amountA amountB) :
      b.Permits
        (.invoke removeLiquidityId context
          [.amount shares, .amount minA, .amount minB, .timestamp deadline])
        (b.removing account amountA.toInt amountB.toInt shares.toInt)
  | buy {context amountOut maxIn deadline account amountIn}
      (h : b.Buys context amountOut maxIn deadline account amountIn) :
      b.Permits
        (.invoke swapForExactId context [.amount amountOut, .amount maxIn, .timestamp deadline])
        (b.trading account amountIn.toInt amountOut.toInt)
  | sell {context amountIn minOut deadline account amountOut}
      (h : b.Sells context amountIn minOut deadline account amountOut) :
      b.Permits
        (.invoke swapExactId context [.amount amountIn, .amount minOut, .timestamp deadline])
        (b.trading account amountIn.toInt amountOut.toInt)
  | deposit {token t account amount context} (role : b.role? token = some t)
      (traded : t ≠ .liquidity) (positive : 0 < amount.toInt)
      (credit : b.escrow t account + amount.toInt < 9223372036854775808) :
      b.Permits (.deposit token account amount context)
        [.escrow t account (b.escrow t account + amount.toInt)]
  | fund {token account amount context} (role : b.role? token = some .liquidity)
      (maker : account = b.maker) (positive : 0 < amount.toInt)
      (fits : b.reserve .liquidity + amount.toInt < 9223372036854775808) :
      b.Permits (.deposit token account amount context)
        [.reserve .liquidity (b.reserve .liquidity + amount.toInt)]
  | withdraw {token t account amount context} (role : b.role? token = some t)
      (positive : 0 < amount.toInt) (covered : amount.toInt ≤ b.escrow t account) :
      b.Permits (.withdraw token account amount context)
        [.escrow t account (b.escrow t account - amount.toInt)]

variable {b : Book} {s : Store}

/-- The deployment after entries are posted. -/
def settled (s : Store) (ps : List Posting) : Deployment Store :=
  ⟨valid, s.commit (ps.map Posting.update)⟩

attribute [local simp] List.map_eq_cons_iff type_eq_address_iff type_eq_tokenId_iff
  type_eq_amount_iff type_eq_timestamp_iff

theorem params_le : ∀ f ∈ functions, f.params.length ≤ 64 := by decide

theorem permits_of_invoke (hb : b.Shows s.view) {f : Function} (hf : f ∈ functions)
    {context : Context} {args : List Value} {next : Deployment Store}
    (h : (Deployment.mk valid s).call f context args = .ok next) :
    ∃ ps, b.Permits (.invoke f.id context args) ps ∧ next = settled s ps := by
  obtain ⟨⟨htypes, -⟩, hrun⟩ := (call_eq_ok_iff (params_le f hf)).mp h
  simp only [functions, List.mem_cons, List.not_mem_nil, or_false] at hf
  rcases hf with rfl | rfl | rfl | rfl | rfl | rfl
  · change args.map Value.type = [.address] at htypes
    obtain ⟨maker, rfl⟩ : ∃ a, args = [.address a] := by simpa using htypes
    obtain ⟨signer, hnext⟩ := (completes_supersede hb maker).mp hrun
    exact ⟨_, .supersede signer, hnext.symm⟩
  · change args.map Value.type = [.amount, .amount] at htypes
    obtain ⟨amountA, amountB, rfl⟩ : ∃ x y, args = [.amount x, .amount y] := by simpa using htypes
    obtain ⟨shares, hopens, hnext⟩ := (completes_setSwap hb amountA amountB).mp hrun
    exact ⟨_, .setSwap hopens, hnext.symm⟩
  · change args.map Value.type = [.amount, .amount, .amount, .amount, .timestamp] at htypes
    obtain ⟨offeredA, offeredB, minA, minB, deadline, rfl⟩ : ∃ x y z w t,
        args = [.amount x, .amount y, .amount z, .amount w, .timestamp t] := by simpa using htypes
    obtain ⟨account, amountA, amountB, shares, hadds, hnext⟩ :=
      (completes_addLiquidity hb offeredA offeredB minA minB deadline).mp hrun
    exact ⟨_, .addLiquidity hadds, hnext.symm⟩
  · change args.map Value.type = [.amount, .amount, .amount, .timestamp] at htypes
    obtain ⟨shares, minA, minB, deadline, rfl⟩ : ∃ x y z t,
        args = [.amount x, .amount y, .amount z, .timestamp t] := by simpa using htypes
    obtain ⟨account, amountA, amountB, hremoves, hnext⟩ :=
      (completes_removeLiquidity hb shares minA minB deadline).mp hrun
    exact ⟨_, .removeLiquidity hremoves, hnext.symm⟩
  · change args.map Value.type = [.amount, .amount, .timestamp] at htypes
    obtain ⟨amountOut, maxIn, deadline, rfl⟩ : ∃ x y t,
        args = [.amount x, .amount y, .timestamp t] := by simpa using htypes
    obtain ⟨account, amountIn, hbuys, hnext⟩ :=
      (completes_swapForExact hb amountOut maxIn deadline).mp hrun
    exact ⟨_, .buy hbuys, hnext.symm⟩
  · change args.map Value.type = [.amount, .amount, .timestamp] at htypes
    obtain ⟨amountIn, minOut, deadline, rfl⟩ : ∃ x y t,
        args = [.amount x, .amount y, .timestamp t] := by simpa using htypes
    obtain ⟨account, amountOut, hsells, hnext⟩ :=
      (completes_swapExact hb amountIn minOut deadline).mp hrun
    exact ⟨_, .sell hsells, hnext.symm⟩

theorem call_depositTrigger_iff (hb : b.Shows s.view) (t : Asset) {account : Address}
    {amount : Int64} {context : Context} {next : Deployment Store} :
    (Deployment.mk valid s).call (depositTrigger t) context [.address account, .amount amount] =
        .ok next ↔
      0 < amount.toInt ∧
        ((t ≠ .liquidity ∧ b.escrow t account + amount.toInt < 9223372036854775808 ∧
            settled s [.escrow t account (b.escrow t account + amount.toInt)] = next) ∨
          (t = .liquidity ∧ account = b.maker ∧
            b.reserve .liquidity + amount.toInt < 9223372036854775808 ∧
            settled s [.reserve .liquidity (b.reserve .liquidity + amount.toInt)] = next)) := by
  have haccepts : (depositTrigger t).Accepts [.address account, .amount amount] := by
    refine ⟨?_, by simp [Value.encodable, Value.payloadLength?]⟩
    cases t <;> rfl
  rw [call_eq_ok_iff (by cases t <;> decide), and_iff_right haccepts]
  cases t <;> simp only [ne_eq, reduceCtorEq, not_true_eq_false, not_false_eq_true, true_and,
    false_and, or_false, false_or]
  · exact completes_depositEscrow hb 1 .a account amount
  · exact completes_depositEscrow hb 2 .b account amount
  · exact (completes_fundLiquidity hb account amount).trans and_left_comm

theorem call_withdrawTrigger_iff (hb : b.Shows s.view) (t : Asset) {account : Address}
    {amount : Int64} {context : Context} {next : Deployment Store} :
    (Deployment.mk valid s).call (withdrawTrigger t) context [.address account, .amount amount] =
        .ok next ↔
      0 < amount.toInt ∧ amount.toInt ≤ b.escrow t account ∧
        settled s [.escrow t account (b.escrow t account - amount.toInt)] = next := by
  have haccepts : (withdrawTrigger t).Accepts [.address account, .amount amount] := by
    refine ⟨?_, by simp [Value.encodable, Value.payloadLength?]⟩
    cases t <;> rfl
  rw [call_eq_ok_iff (by cases t <;> decide), and_iff_right haccepts]
  cases t with
  | a => exact completes_withdrawEscrow hb 4 .a account amount
  | b => exact completes_withdrawEscrow hb 5 .b account amount
  | liquidity => exact completes_withdrawEscrow hb 6 .liquidity account amount

theorem perform_of_permits (hb : b.Shows s.view) {c : Call} {ps : List Posting}
    (h : b.Permits c ps) : (Deployment.mk valid s).perform c = .ok (settled s ps) := by
  have hinvoke : ∀ f ∈ functions, ∀ context args, f.Accepts args →
      Machine.Completes ⟨contract, context⟩ f.code ⟨.ofValues 64 args, { base := s.view }⟩
        (fun m => (Deployment.mk valid s).LeadsTo (settled s ps) m.overlay) →
      (Deployment.mk valid s).perform (.invoke f.id context args) = .ok (settled s ps) := by
    intro f hf context args haccepts hrun
    exact invoke_eq_ok_iff.mpr ⟨f, hf, rfl, (call_eq_ok_iff (params_le f hf)).mpr ⟨haccepts, hrun⟩⟩
  have hencodable : ∀ {args : List Value}, (∀ v ∈ args, v.payloadLength? = none) →
      ∀ v ∈ args, v.encodable = true := by
    intro args hargs v hv
    rw [Value.encodable, hargs v hv]
  cases h with
  | supersede signer =>
      exact hinvoke supersede (by decide) _ _ ⟨rfl, hencodable (by simp [Value.payloadLength?])⟩
        ((completes_supersede hb _).mpr ⟨signer, rfl⟩)
  | setSwap h =>
      exact hinvoke setSwap (by decide) _ _ ⟨rfl, hencodable (by simp [Value.payloadLength?])⟩
        ((completes_setSwap hb _ _).mpr ⟨_, h, rfl⟩)
  | addLiquidity h =>
      exact hinvoke addLiquidity (by decide) _ _ ⟨rfl, hencodable (by simp [Value.payloadLength?])⟩
        ((completes_addLiquidity hb _ _ _ _ _).mpr ⟨_, _, _, _, h, rfl⟩)
  | removeLiquidity h =>
      exact hinvoke removeLiquidity (by decide) _ _
        ⟨rfl, hencodable (by simp [Value.payloadLength?])⟩
        ((completes_removeLiquidity hb _ _ _ _).mpr ⟨_, _, _, h, rfl⟩)
  | buy h =>
      exact hinvoke swapForExact (by decide) _ _ ⟨rfl, hencodable (by simp [Value.payloadLength?])⟩
        ((completes_swapForExact hb _ _ _).mpr ⟨_, _, h, rfl⟩)
  | sell h =>
      exact hinvoke swapExact (by decide) _ _ ⟨rfl, hencodable (by simp [Value.payloadLength?])⟩
        ((completes_swapExact hb _ _ _).mpr ⟨_, _, h, rfl⟩)
  | @deposit token t account amount context role traded positive credit =>
      refine (deposit_eq_ok_iff hb).mpr ⟨t, role, (call_depositTrigger_iff hb t).mpr ⟨positive, ?_⟩⟩
      exact .inl ⟨traded, credit, rfl⟩
  | fund role maker positive fits =>
      refine (deposit_eq_ok_iff hb).mpr
        ⟨.liquidity, role, (call_depositTrigger_iff hb .liquidity).mpr ⟨positive, ?_⟩⟩
      exact .inr ⟨rfl, maker, fits, rfl⟩
  | @withdraw token t account amount context role positive covered =>
      exact (withdraw_eq_ok_iff hb).mpr
        ⟨t, role, (call_withdrawTrigger_iff hb t).mpr ⟨positive, covered, rfl⟩⟩

/-- A call goes through exactly if the rules permit it, and it posts what the rules say. -/
theorem perform_eq_ok_iff (hb : b.Shows s.view) {c : Call} {next : Deployment Store} :
    (Deployment.mk valid s).perform c = .ok next ↔
      ∃ ps, b.Permits c ps ∧ next = settled s ps := by
  constructor
  · intro h
    cases c with
    | invoke id context args =>
        obtain ⟨f, hf, rfl, hcall⟩ := invoke_eq_ok_iff.mp h
        exact permits_of_invoke hb hf hcall
    | deposit token account amount context =>
        obtain ⟨t, role, hcall⟩ := (deposit_eq_ok_iff hb).mp h
        obtain ⟨positive, ⟨traded, credit, rfl⟩ | ⟨rfl, maker, fits, rfl⟩⟩ :=
          (call_depositTrigger_iff hb t).mp hcall
        · exact ⟨_, .deposit role traded positive credit, rfl⟩
        · exact ⟨_, .fund role maker positive fits, rfl⟩
    | withdraw token account amount context =>
        obtain ⟨t, role, hcall⟩ := (withdraw_eq_ok_iff hb).mp h
        obtain ⟨positive, covered, rfl⟩ := (call_withdrawTrigger_iff hb t).mp hcall
        exact ⟨_, .withdraw role positive covered, rfl⟩
  · rintro ⟨ps, hpermits, rfl⟩
    exact perform_of_permits hb hpermits

end ContractMachine.Pool
