import ContractMachine.Proofs.Pool.Book

/-! The rules of a pool, in integers: when each function goes through and what it then posts to
the book. -/

namespace ContractMachine

/-- The call has a time, and it is not past the deadline. -/
def Context.Timely (context : Context) (deadline : Int64) : Prop :=
  ∃ now, context.timestamp = some now ∧ now.toInt ≤ deadline.toInt

namespace Pool.Book

/-! ### Opening -/

/-- The maker opens the pool with a first deposit, for the root of the product in shares. -/
structure Opens (b : Book) (context : Context) (amountA amountB shares : Int64) : Prop where
  caller : context.caller = some b.maker
  closed : b.enabled = false
  positiveA : 0 < amountA.toInt
  positiveB : 0 < amountB.toInt
  coveredA : amountA.toInt ≤ b.escrow .a b.maker
  coveredB : amountB.toInt ≤ b.escrow .b b.maker
  positive : 0 < shares.toInt
  root_le : shares.toInt * shares.toInt ≤ amountA.toInt * amountB.toInt
  lt_root : amountA.toInt * amountB.toInt < (shares.toInt + 1) * (shares.toInt + 1)
  minimum_lt : b.minimum < shares.toInt
  budget : shares.toInt ≤ b.reserve .liquidity
  minted : shares.toInt - b.minimum < 9223372036854775808
  credit : b.escrow .liquidity b.maker + (shares.toInt - b.minimum) < 9223372036854775808

/-- The entries of an opening. -/
def opening (b : Book) (amountA amountB shares : Int) : List Posting :=
  [.escrow .a b.maker (b.escrow .a b.maker - amountA),
    .escrow .b b.maker (b.escrow .b b.maker - amountB),
    .reserve .liquidity (b.reserve .liquidity - shares),
    .escrow .liquidity b.maker (b.escrow .liquidity b.maker + (shares - b.minimum)),
    .supply shares, .reserve .a amountA, .reserve .b amountB, .enable]

/-! ### Liquidity -/

/-- The amount of A that matches an amount of B at the ratio of the reserves. -/
def matchingA (b : Book) (amountB : Int) : Int := (amountB * b.reserve .a).tdiv (b.reserve .b)

def matchingB (b : Book) (amountA : Int) : Int := (amountA * b.reserve .b).tdiv (b.reserve .a)

/-- Tokens at the ratio of the reserves come in for shares. All of the offered A is taken if the
matching B is within what is offered, otherwise all of the offered B. -/
structure Adds (b : Book) (context : Context) (offeredA offeredB minA minB deadline : Int64)
    (account : Address) (amountA amountB shares : Int64) : Prop where
  enabled : b.enabled = true
  timely : context.Timely deadline
  caller : context.caller = some account
  reserveA : 0 < b.reserve .a
  reserveB : 0 < b.reserve .b
  amountA_eq : amountA.toInt = if b.matchingB offeredA.toInt ≤ offeredB.toInt then offeredA.toInt
    else b.matchingA offeredB.toInt
  amountB_eq : amountB.toInt = if b.matchingB offeredA.toInt ≤ offeredB.toInt then
    b.matchingB offeredA.toInt else offeredB.toInt
  minA_le : minA.toInt ≤ amountA.toInt
  minB_le : minB.toInt ≤ amountB.toInt
  shares_eq : shares.toInt =
    BinaryOp.min.exact ((amountA.toInt * b.supply).tdiv (b.reserve .a))
      ((amountB.toInt * b.supply).tdiv (b.reserve .b))
  positive : 0 < shares.toInt
  positiveA : 0 < amountA.toInt
  coveredA : amountA.toInt ≤ b.escrow .a account
  positiveB : 0 < amountB.toInt
  coveredB : amountB.toInt ≤ b.escrow .b account
  budget : shares.toInt ≤ b.reserve .liquidity
  fitsA : b.reserve .a + amountA.toInt < 9223372036854775808
  fitsB : b.reserve .b + amountB.toInt < 9223372036854775808
  supply : b.supply + shares.toInt < 9223372036854775808
  credit : b.escrow .liquidity account + shares.toInt < 9223372036854775808

def adding (b : Book) (account : Address) (amountA amountB shares : Int) : List Posting :=
  [.escrow .a account (b.escrow .a account - amountA),
    .escrow .b account (b.escrow .b account - amountB),
    .reserve .liquidity (b.reserve .liquidity - shares),
    .reserve .a (b.reserve .a + amountA), .reserve .b (b.reserve .b + amountB),
    .supply (b.supply + shares),
    .escrow .liquidity account (b.escrow .liquidity account + shares)]

/-- Shares are given back for their part of both reserves. -/
structure Removes (b : Book) (context : Context) (shares minA minB deadline : Int64)
    (account : Address) (amountA amountB : Int64) : Prop where
  enabled : b.enabled = true
  timely : context.Timely deadline
  caller : context.caller = some account
  positive : 0 < shares.toInt
  covered : shares.toInt ≤ b.escrow .liquidity account
  supply_ne : b.supply ≠ 0
  amountA_eq : amountA.toInt = (shares.toInt * b.reserve .a).tdiv b.supply
  amountB_eq : amountB.toInt = (shares.toInt * b.reserve .b).tdiv b.supply
  minA_le : minA.toInt ≤ amountA.toInt
  minB_le : minB.toInt ≤ amountB.toInt
  positiveA : 0 < amountA.toInt
  creditA : b.escrow .a account + amountA.toInt < 9223372036854775808
  positiveB : 0 < amountB.toInt
  creditB : b.escrow .b account + amountB.toInt < 9223372036854775808
  reserveA : amountA.toInt ≤ b.reserve .a
  reserveB : amountB.toInt ≤ b.reserve .b
  supply : shares.toInt ≤ b.supply
  budget : b.reserve .liquidity + shares.toInt < 9223372036854775808

def removing (b : Book) (account : Address) (amountA amountB shares : Int) : List Posting :=
  [.escrow .liquidity account (b.escrow .liquidity account - shares),
    .escrow .a account (b.escrow .a account + amountA),
    .escrow .b account (b.escrow .b account + amountB),
    .reserve .a (b.reserve .a - amountA), .reserve .b (b.reserve .b - amountB),
    .supply (b.supply - shares), .reserve .liquidity (b.reserve .liquidity + shares)]

/-! ### Trades -/

/-- The product of the reserves, less the fee on what comes in, does not fall. -/
def KeepsProduct (b : Book) (amountIn amountOut : Int) : Prop :=
  b.reserve .a * b.reserve .b * 1000000 ≤
    ((b.reserve .a + amountIn) * 1000 - amountIn * 3) * ((b.reserve .b - amountOut) * 1000)

/-- A comes in from the caller and B goes out, and the product of the reserves, less the fee on
what comes in, does not fall. -/
structure Trades (b : Book) (context : Context) (deadline : Int64) (account : Address)
    (amountIn amountOut : Int64) : Prop where
  enabled : b.enabled = true
  timely : context.Timely deadline
  caller : context.caller = some account
  positiveIn : 0 < amountIn.toInt
  positiveOut : 0 < amountOut.toInt
  out_lt : amountOut.toInt < b.reserve .b
  product : b.KeepsProduct amountIn.toInt amountOut.toInt
  covered : amountIn.toInt ≤ b.escrow .a account
  credit : b.escrow .b account + amountOut.toInt < 9223372036854775808
  fits : b.reserve .a + amountIn.toInt < 9223372036854775808

/-- A trade at the price for an exact amount in. -/
structure Sells (b : Book) (context : Context) (amountIn minOut deadline : Int64)
    (account : Address) (amountOut : Int64) : Prop
    extends b.Trades context deadline account amountIn amountOut where
  divisor : b.reserve .a * 1000 + amountIn.toInt * 997 ≠ 0
  price : amountOut.toInt = (amountIn.toInt * 997 * b.reserve .b).tdiv
    (b.reserve .a * 1000 + amountIn.toInt * 997)
  minOut_le : minOut.toInt ≤ amountOut.toInt

/-- A trade at the price for an exact amount out. -/
structure Buys (b : Book) (context : Context) (amountOut maxIn deadline : Int64)
    (account : Address) (amountIn : Int64) : Prop
    extends b.Trades context deadline account amountIn amountOut where
  price : amountIn.toInt = (b.reserve .a * amountOut.toInt * 1000).tdiv
    ((b.reserve .b - amountOut.toInt) * 997) + 1
  le_maxIn : amountIn.toInt ≤ maxIn.toInt

def trading (b : Book) (account : Address) (amountIn amountOut : Int) : List Posting :=
  [.escrow .a account (b.escrow .a account - amountIn),
    .escrow .b account (b.escrow .b account + amountOut),
    .reserve .a (b.reserve .a + amountIn), .reserve .b (b.reserve .b - amountOut)]

end Pool.Book

end ContractMachine
