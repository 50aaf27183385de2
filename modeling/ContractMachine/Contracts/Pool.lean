import ContractMachine.Contracts.Assembly
import ContractMachine.Draft

/-! A pool of two tokens A and B that trades one for the other. The product of the reserves never
falls in a trade, and three thousandths of what comes in stay in the pool. Tokens that are paid in
go to an escrow of their account, and every function works on escrows only. Products and quotients
are taken on big integers; only what is final is narrowed to an amount. -/

namespace ContractMachine.Pool

open Assemble

/-! ### Slots and functions -/

/-- The account that deployed the pool and opens it. -/
def makerVar : SlotIndex := 0

def tokenAVar : SlotIndex := 1

def tokenBVar : SlotIndex := 2

def liquidityTokenVar : SlotIndex := 3

/-- Whether the pool is open. -/
def swapEnabledVar : SlotIndex := 4

/-- Shares that the first deposit locks for ever. -/
def minimumLiquidityVar : SlotIndex := 5

def reserveAVar : SlotIndex := 6

def reserveBVar : SlotIndex := 7

/-- Shares in existence. -/
def totalSupplyVar : SlotIndex := 8

/-- Shares that can still be given out. -/
def liquidityBudgetVar : SlotIndex := 9

def escrowAMap : SlotIndex := 0

def escrowBMap : SlotIndex := 1

def escrowLiquidityMap : SlotIndex := 2

def supersedeId : FunctionId := 0

def setSwapId : FunctionId := 1

def addLiquidityId : FunctionId := 2

def removeLiquidityId : FunctionId := 3

def swapForExactId : FunctionId := 4

def swapExactId : FunctionId := 5

/-- What counts of the input of a trade, in thousandths. -/
def feeNumerator : Int := 997

def feeDenominator : Int := 1000

/-! ### Triggers -/

def init : Function :=
  .trigger 0 .onInit [.tokenId, .tokenId, .tokenId, .amount] <| body 4 do
    emit (.setVar tokenAVar 0)
    emit (.setVar tokenBVar 1)
    emit (.setVar liquidityTokenVar 2)
    emit (.setVar minimumLiquidityVar 3)
    let maker ← signer
    emit (.setVar makerVar maker)
    let disabled ← constant (.boolean false)
    emit (.setVar swapEnabledVar disabled)
    let zero ← amount 0
    emit (.setVar reserveAVar zero)
    emit (.setVar reserveBVar zero)
    emit (.setVar totalSupplyVar zero)
    emit (.setVar liquidityBudgetVar zero)

/-- Parameters of a deposit or withdrawal: the account and the amount. -/
def flowParams : List DataType := [.address, .amount]

/-- Credit the escrow of the account. -/
def depositEscrow (id : FunctionId) (tokenVar map : SlotIndex) : Function :=
  .trigger id (.onDeposit tokenVar) flowParams <| body 2 do
    emit (.moveEntry .add map 0 1)

/-- Debit the escrow of the account. -/
def withdrawEscrow (id : FunctionId) (tokenVar map : SlotIndex) : Function :=
  .trigger id (.onWithdraw tokenVar) flowParams <| body 2 do
    emit (.moveEntry .minus map 0 1)

/-- Share tokens come from the maker alone and go to the budget. -/
def fundLiquidity : Function :=
  .trigger 3 (.onDeposit liquidityTokenVar) flowParams <| body 2 do
    let maker ← getVar makerVar
    emit (.assertEqual 0 maker)
    emit (.moveVar .add liquidityBudgetVar 1)

/-! ### Functions -/

def supersede : Function :=
  .callable supersedeId [.address] <| body 1 do
    let maker ← getVar makerVar
    emit (.assertParty .signer maker)
    emit (.setVar makerVar 0)

def requireEnabled : Assemble Unit := do
  let enabled ← getVar swapEnabledVar
  emit (.assertTrue enabled)

/-- Open the pool with its first deposit: shares number the root of the product. -/
def setSwap : Function :=
  .callable setSwapId [.amount, .amount] <| body 2 do
    let desiredA : Register := 0
    let desiredB : Register := 1
    let maker ← getVar makerVar
    emit (.assertParty .caller maker)
    let enabled ← getVar swapEnabledVar
    let disabled ← not enabled
    emit (.assertTrue disabled)
    let zero ← amount 0
    require .greater desiredA zero
    require .greater desiredB zero
    let account ← caller
    emit (.moveEntry .minus escrowAMap account desiredA)
    emit (.moveEntry .minus escrowBMap account desiredB)
    let bigA ← widen desiredA
    let bigB ← widen desiredB
    let product ← binary .multiply bigA bigB
    let root ← sqrt product
    let initial ← narrow root
    let minimum ← getVar minimumLiquidityVar
    require .greater initial minimum
    emit (.moveVar .minus liquidityBudgetVar initial)
    let minted ← binary .minus initial minimum
    emit (.moveEntry .add escrowLiquidityMap account minted)
    emit (.setVar totalSupplyVar initial)
    emit (.setVar reserveAVar desiredA)
    emit (.setVar reserveBVar desiredB)
    let on ← constant (.boolean true)
    emit (.setVar swapEnabledVar on)

/-- Add both tokens at the ratio of the reserves and give out shares for them. If the amount of B
that matches A is within what is offered, all of A is taken; otherwise all of B is. There are no
branches, so the choice is a factor of one or zero. -/
def addLiquidity : Function :=
  .callable addLiquidityId [.amount, .amount, .amount, .amount, .timestamp] <| body 5 do
    let desiredA : Register := 0
    let desiredB : Register := 1
    let minA : Register := 2
    let minB : Register := 3
    let deadline : Register := 4
    requireEnabled
    assertNotExpired deadline
    let reserveA ← getVar reserveAVar
    let reserveB ← getVar reserveBVar
    let total ← getVar totalSupplyVar
    let zero ← amount 0
    require .greater reserveA zero
    require .greater reserveB zero
    let bigDesiredA ← widen desiredA
    let bigDesiredB ← widen desiredB
    let bigReserveA ← widen reserveA
    let bigReserveB ← widen reserveB
    let bigTotal ← widen total
    let scaledB ← binary .multiply bigDesiredA bigReserveB
    let optimalB ← binary .divide scaledB bigReserveA
    let scaledA ← binary .multiply bigDesiredB bigReserveA
    let optimalA ← binary .divide scaledA bigReserveB
    let bigZero ← bigInteger 0
    let bigOne ← bigInteger 1
    -- one if the matching amount of B is within what is offered, else zero
    let slack ← binary .minus bigDesiredB optimalB
    let slack ← binary .add slack bigOne
    let pick ← binary .max slack bigZero
    let pick ← binary .min pick bigOne
    let gapA ← binary .minus bigDesiredA optimalA
    let gapA ← binary .multiply pick gapA
    let bigAmountA ← binary .add optimalA gapA
    let gapB ← binary .minus optimalB bigDesiredB
    let gapB ← binary .multiply pick gapB
    let bigAmountB ← binary .add bigDesiredB gapB
    let amountA ← narrow bigAmountA
    let amountB ← narrow bigAmountB
    require .greaterEqual amountA minA
    require .greaterEqual amountB minB
    let shareA ← binary .multiply bigAmountA bigTotal
    let liquidityA ← binary .divide shareA bigReserveA
    let shareB ← binary .multiply bigAmountB bigTotal
    let liquidityB ← binary .divide shareB bigReserveB
    let bigLiquidity ← binary .min liquidityA liquidityB
    let liquidity ← narrow bigLiquidity
    require .greater liquidity zero
    let account ← caller
    emit (.moveEntry .minus escrowAMap account amountA)
    emit (.moveEntry .minus escrowBMap account amountB)
    emit (.moveVar .minus liquidityBudgetVar liquidity)
    emit (.moveVar .add reserveAVar amountA)
    emit (.moveVar .add reserveBVar amountB)
    emit (.moveVar .add totalSupplyVar liquidity)
    emit (.moveEntry .add escrowLiquidityMap account liquidity)

/-- Give back shares for their part of both reserves. -/
def removeLiquidity : Function :=
  .callable removeLiquidityId [.amount, .amount, .amount, .timestamp] <| body 4 do
    let liquidity : Register := 0
    let minA : Register := 1
    let minB : Register := 2
    let deadline : Register := 3
    requireEnabled
    assertNotExpired deadline
    let account ← caller
    emit (.moveEntry .minus escrowLiquidityMap account liquidity)
    let reserveA ← getVar reserveAVar
    let reserveB ← getVar reserveBVar
    let total ← getVar totalSupplyVar
    let bigLiquidity ← widen liquidity
    let bigReserveA ← widen reserveA
    let bigReserveB ← widen reserveB
    let bigTotal ← widen total
    let shareA ← binary .multiply bigLiquidity bigReserveA
    let bigAmountA ← binary .divide shareA bigTotal
    let shareB ← binary .multiply bigLiquidity bigReserveB
    let bigAmountB ← binary .divide shareB bigTotal
    let amountA ← narrow bigAmountA
    let amountB ← narrow bigAmountB
    require .greaterEqual amountA minA
    require .greaterEqual amountB minB
    emit (.moveEntry .add escrowAMap account amountA)
    emit (.moveEntry .add escrowBMap account amountB)
    emit (.moveVar .minus reserveAVar amountA)
    emit (.moveVar .minus reserveBVar amountB)
    emit (.moveVar .minus totalSupplyVar liquidity)
    emit (.moveVar .add liquidityBudgetVar liquidity)

/-- Require that the product of the reserves, less the fee on the input, has not fallen. -/
def requireProduct (bigReserveA bigReserveB bigIn bigOut : Register) : Assemble Unit := do
  let denominator ← bigInteger feeDenominator
  let fee ← bigInteger (feeDenominator - feeNumerator)
  let afterA ← binary .add bigReserveA bigIn
  let afterB ← binary .minus bigReserveB bigOut
  let scaledA ← binary .multiply afterA denominator
  let charged ← binary .multiply bigIn fee
  let adjustedA ← binary .minus scaledA charged
  let adjustedB ← binary .multiply afterB denominator
  let productAfter ← binary .multiply adjustedA adjustedB
  let product ← binary .multiply bigReserveA bigReserveB
  let scale ← binary .multiply denominator denominator
  let productBefore ← binary .multiply product scale
  require .greaterEqual productAfter productBefore

/-- Move what is traded between the escrows of the caller and the reserves. -/
def settle (amountIn amountOut : Register) : Assemble Unit := do
  let account ← caller
  emit (.moveEntry .minus escrowAMap account amountIn)
  emit (.moveEntry .add escrowBMap account amountOut)
  emit (.moveVar .add reserveAVar amountIn)
  emit (.moveVar .minus reserveBVar amountOut)

/-- Buy an exact amount of B for at most an amount of A. -/
def swapForExact : Function :=
  .callable swapForExactId [.amount, .amount, .timestamp] <| body 3 do
    let amountOut : Register := 0
    let maxIn : Register := 1
    let deadline : Register := 2
    requireEnabled
    assertNotExpired deadline
    let zero ← amount 0
    require .greater amountOut zero
    let reserveA ← getVar reserveAVar
    let reserveB ← getVar reserveBVar
    require .greater reserveB amountOut
    let bigReserveA ← widen reserveA
    let bigReserveB ← widen reserveB
    let bigOut ← widen amountOut
    let denominator ← bigInteger feeDenominator
    let numerator ← bigInteger feeNumerator
    let one ← bigInteger 1
    let scaledOut ← binary .multiply bigReserveA bigOut
    let dividend ← binary .multiply scaledOut denominator
    let remaining ← binary .minus bigReserveB bigOut
    let divisor ← binary .multiply remaining numerator
    let quotient ← binary .divide dividend divisor
    let bigIn ← binary .add quotient one
    let amountIn ← narrow bigIn
    require .greaterEqual maxIn amountIn
    requireProduct bigReserveA bigReserveB bigIn bigOut
    settle amountIn amountOut

/-- Sell an exact amount of A for at least an amount of B. -/
def swapExact : Function :=
  .callable swapExactId [.amount, .amount, .timestamp] <| body 3 do
    let amountIn : Register := 0
    let minOut : Register := 1
    let deadline : Register := 2
    requireEnabled
    assertNotExpired deadline
    let zero ← amount 0
    require .greater amountIn zero
    let reserveA ← getVar reserveAVar
    let reserveB ← getVar reserveBVar
    let bigReserveA ← widen reserveA
    let bigReserveB ← widen reserveB
    let bigIn ← widen amountIn
    let denominator ← bigInteger feeDenominator
    let numerator ← bigInteger feeNumerator
    let charged ← binary .multiply bigIn numerator
    let dividend ← binary .multiply charged bigReserveB
    let scaledA ← binary .multiply bigReserveA denominator
    let divisor ← binary .add scaledA charged
    let bigOut ← binary .divide dividend divisor
    let amountOut ← narrow bigOut
    require .greaterEqual amountOut minOut
    require .greater amountOut zero
    require .greater reserveB amountOut
    requireProduct bigReserveA bigReserveB bigIn bigOut
    settle amountIn amountOut

def contract : Contract :=
  let flow (name : String) : Signature := ⟨name, ["account", "amount"], []⟩
  (({ version := 2 } : Draft)
    |>.addVar "maker" makerVar .address
    |>.addVar "tokenAId" tokenAVar .tokenId
    |>.addVar "tokenBId" tokenBVar .tokenId
    |>.addVar "liquidityTokenId" liquidityTokenVar .tokenId
    |>.addVar "swapEnabled" swapEnabledVar .boolean
    |>.addVar "minimumLiquidity" minimumLiquidityVar .amount
    |>.addVar "reserveA" reserveAVar .amount
    |>.addVar "reserveB" reserveBVar .amount
    |>.addVar "totalLiquiditySupply" totalSupplyVar .amount
    |>.addVar "liquidityBudgetRemaining" liquidityBudgetVar .amount
    |>.addMap "tokenAEscrow" escrowAMap .address .amount
    |>.addMap "tokenBEscrow" escrowBMap .address .amount
    |>.addMap "liquidityEscrow" escrowLiquidityMap .address .amount
    |>.addTrigger
      ⟨"init", ["tokenAId", "tokenBId", "liquidityTokenId", "minimumLiquidity"], []⟩ init
    |>.addTrigger (flow "depositA") (depositEscrow 1 tokenAVar escrowAMap)
    |>.addTrigger (flow "depositB") (depositEscrow 2 tokenBVar escrowBMap)
    |>.addTrigger (flow "depositLiquidity") fundLiquidity
    |>.addTrigger (flow "withdrawA") (withdrawEscrow 4 tokenAVar escrowAMap)
    |>.addTrigger (flow "withdrawB") (withdrawEscrow 5 tokenBVar escrowBMap)
    |>.addTrigger (flow "withdrawLiquidity")
      (withdrawEscrow 6 liquidityTokenVar escrowLiquidityMap)
    |>.addFunction ⟨"supersede", ["newMaker"], []⟩ supersede
    |>.addFunction ⟨"setSwap", ["amountADesired", "amountBDesired"], []⟩ setSwap
    |>.addFunction
      ⟨"addLiquidity",
        ["amountADesired", "amountBDesired", "amountAMin", "amountBMin", "deadline"], []⟩
      addLiquidity
    |>.addFunction
      ⟨"removeLiquidity", ["liquidity", "amountAMin", "amountBMin", "deadline"], []⟩
      removeLiquidity
    |>.addFunction
      ⟨"swapTokenForExactBaseToken", ["amountOut", "amountInMax", "deadline"], []⟩ swapForExact
    |>.addFunction
      ⟨"swapExactTokenForBaseToken", ["amountIn", "amountOutMin", "deadline"], []⟩
      swapExact).toContract

/-- The pool is a valid contract. -/
def valid : ValidContract where
  contract := contract
  limits := {}
  accepted := by decide +kernel

end ContractMachine.Pool
