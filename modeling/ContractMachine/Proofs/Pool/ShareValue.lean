import ContractMachine.Proofs.Pool.Runs
import Mathlib.Tactic.Linarith
import Mathlib.Tactic.Ring

/-! The shares of a pool are backed by its reserves, and what stands behind one share never
falls. Every division in the rules is rounded in favour of those who hold shares. -/

namespace ContractMachine.Pool

namespace Book

/-- There are shares, and both reserves stand behind them. -/
def Live (b : Book) : Prop := 0 < b.reserve .a ∧ 0 < b.reserve .b ∧ 0 < b.supply

/-- There are no shares and no reserves. -/
def Empty (b : Book) : Prop := b.reserve .a = 0 ∧ b.reserve .b = 0 ∧ b.supply = 0

structure Backed (b : Book) : Prop where
  square_le : b.supply * b.supply ≤ b.reserve .a * b.reserve .b
  live_or_empty : b.Live ∨ b.Empty

/-- In the second book no less of the token stands behind one share than in the first. -/
def Keeps (b c : Book) (t : Asset) : Prop := b.reserve t * c.supply ≤ c.reserve t * b.supply

/-! ### Rounding -/

theorem tdiv_mul_le {n d : Int} (hn : 0 ≤ n) (hd : 0 < d) : n.tdiv d * d ≤ n := by
  rw [Int.tdiv_eq_ediv_of_nonneg hn]
  exact Int.ediv_mul_le n hd.ne'

theorem min_exact_le (x y : Int) : BinaryOp.min.exact x y ≤ x ∧ BinaryOp.min.exact x y ≤ y := by
  simp only [BinaryOp.exact]
  grind

variable {b c : Book} {context : Context} {account : Address}

/-- New shares are at most in proportion to what comes in. -/
theorem Adds.mul_shares_le {offeredA offeredB minA minB deadline amountA amountB shares : Int64}
    (h : b.Adds context offeredA offeredB minA minB deadline account amountA amountB shares)
    (hsupply : 0 ≤ b.supply) :
    shares.toInt * b.reserve .a ≤ amountA.toInt * b.supply ∧
      shares.toInt * b.reserve .b ≤ amountB.toInt * b.supply := by
  obtain ⟨hleA, hleB⟩ := min_exact_le ((amountA.toInt * b.supply).tdiv (b.reserve .a))
    ((amountB.toInt * b.supply).tdiv (b.reserve .b))
  rw [← h.shares_eq] at hleA hleB
  constructor
  · calc shares.toInt * b.reserve .a
        ≤ (amountA.toInt * b.supply).tdiv (b.reserve .a) * b.reserve .a :=
          Int.mul_le_mul_of_nonneg_right hleA h.reserveA.le
      _ ≤ amountA.toInt * b.supply := tdiv_mul_le (Int.mul_nonneg h.positiveA.le hsupply) h.reserveA
  · calc shares.toInt * b.reserve .b
        ≤ (amountB.toInt * b.supply).tdiv (b.reserve .b) * b.reserve .b :=
          Int.mul_le_mul_of_nonneg_right hleB h.reserveB.le
      _ ≤ amountB.toInt * b.supply := tdiv_mul_le (Int.mul_nonneg h.positiveB.le hsupply) h.reserveB

/-- What goes out is at most in proportion to the shares that are given back. -/
theorem Removes.amount_mul_le {shares minA minB deadline amountA amountB : Int64}
    (h : b.Removes context shares minA minB deadline account amountA amountB) (hlive : b.Live) :
    amountA.toInt * b.supply ≤ shares.toInt * b.reserve .a ∧
      amountB.toInt * b.supply ≤ shares.toInt * b.reserve .b := by
  obtain ⟨hA, hB, hsupply⟩ := hlive
  rw [h.amountA_eq, h.amountB_eq]
  exact ⟨tdiv_mul_le (Int.mul_nonneg h.positive.le hA.le) hsupply,
    tdiv_mul_le (Int.mul_nonneg h.positive.le hB.le) hsupply⟩

/-- The fee can only add to the product of the reserves. -/
theorem Trades.product_le {deadline amountIn amountOut : Int64}
    (h : b.Trades context deadline account amountIn amountOut) :
    b.reserve .a * b.reserve .b ≤
      (b.reserve .a + amountIn.toInt) * (b.reserve .b - amountOut.toInt) := by
  have hleft : 0 ≤ b.reserve .b - amountOut.toInt := by
    have := h.out_lt
    omega
  have hfee := Int.mul_nonneg h.positiveIn.le hleft
  have hproduct := h.product
  rw [KeepsProduct] at hproduct
  nlinarith

/-! ### The book after a call -/

theorem reserves_opening (b : Book) (amountA amountB shares : Int) :
    (b.posted (b.opening amountA amountB shares)).reserve .a = amountA ∧
    (b.posted (b.opening amountA amountB shares)).reserve .b = amountB ∧
    (b.posted (b.opening amountA amountB shares)).supply = shares := by
  simp [posted, post, opening]

theorem reserves_adding (b : Book) (account : Address) (amountA amountB shares : Int) :
    (b.posted (b.adding account amountA amountB shares)).reserve .a = b.reserve .a + amountA ∧
    (b.posted (b.adding account amountA amountB shares)).reserve .b = b.reserve .b + amountB ∧
    (b.posted (b.adding account amountA amountB shares)).supply = b.supply + shares := by
  simp [posted, post, adding]

theorem reserves_removing (b : Book) (account : Address) (amountA amountB shares : Int) :
    (b.posted (b.removing account amountA amountB shares)).reserve .a = b.reserve .a - amountA ∧
    (b.posted (b.removing account amountA amountB shares)).reserve .b = b.reserve .b - amountB ∧
    (b.posted (b.removing account amountA amountB shares)).supply = b.supply - shares := by
  simp [posted, post, removing]

theorem reserves_trading (b : Book) (account : Address) (amountIn amountOut : Int) :
    (b.posted (b.trading account amountIn amountOut)).reserve .a = b.reserve .a + amountIn ∧
    (b.posted (b.trading account amountIn amountOut)).reserve .b = b.reserve .b - amountOut ∧
    (b.posted (b.trading account amountIn amountOut)).supply = b.supply := by
  simp [posted, post, trading]

/-! ### What one call does to the value of a share -/

/-- A call does not make the shares worth less: the product of the reserves does not fall against
the square of the supply. A trade leaves the supply, and with liquidity each reserve keeps its
proportion to the supply. -/
structure KeepsValue (b c : Book) (call : Call) : Prop where
  product : b.reserve .a * b.reserve .b * c.supply * c.supply ≤
    c.reserve .a * c.reserve .b * b.supply * b.supply
  trade : call.Invokes swapForExactId ∨ call.Invokes swapExactId →
    c.supply = b.supply ∧ b.reserve .a * b.reserve .b ≤ c.reserve .a * c.reserve .b
  liquidity : call.Invokes addLiquidityId ∨ call.Invokes removeLiquidityId →
    b.Keeps c .a ∧ b.Keeps c .b

theorem KeepsValue.of_eq {call : Call} (hA : c.reserve .a = b.reserve .a)
    (hB : c.reserve .b = b.reserve .b) (hsupply : c.supply = b.supply) : b.KeepsValue c call where
  product := by rw [hA, hB, hsupply]
  trade _ := ⟨hsupply, by rw [hA, hB]⟩
  liquidity _ := ⟨by rw [Keeps, hA, hsupply], by rw [Keeps, hB, hsupply]⟩

theorem KeepsValue.of_keeps {call : Call} (hbA : 0 ≤ b.reserve .a) (hbB : 0 ≤ b.reserve .b)
    (hsupply : 0 ≤ c.supply) (hA : b.Keeps c .a) (hB : b.Keeps c .b)
    (hcall : ¬(call.Invokes swapForExactId ∨ call.Invokes swapExactId)) :
    b.KeepsValue c call where
  product := by
    have hproduct := Int.mul_le_mul hA hB (Int.mul_nonneg hbB hsupply)
      (Int.le_trans (Int.mul_nonneg hbA hsupply) hA)
    linarith
  trade h := absurd h hcall
  liquidity _ := ⟨hA, hB⟩

theorem KeepsValue.of_product {call : Call} (hsupply : c.supply = b.supply)
    (hproduct : b.reserve .a * b.reserve .b ≤ c.reserve .a * c.reserve .b)
    (hcall : ¬(call.Invokes addLiquidityId ∨ call.Invokes removeLiquidityId)) :
    b.KeepsValue c call where
  product := by
    have hsquare := Int.mul_le_mul_of_nonneg_right hproduct (mul_self_nonneg b.supply)
    rw [hsupply]
    linarith
  trade _ := ⟨hsupply, hproduct⟩
  liquidity h := absurd h hcall

theorem Adds.keeps {offeredA offeredB minA minB deadline amountA amountB shares : Int64}
    (h : b.Adds context offeredA offeredB minA minB deadline account amountA amountB shares)
    (hsupply : 0 ≤ b.supply) :
    b.Keeps (b.posted (b.adding account amountA.toInt amountB.toInt shares.toInt)) .a ∧
      b.Keeps (b.posted (b.adding account amountA.toInt amountB.toInt shares.toInt)) .b := by
  obtain ⟨hA, hB, hnew⟩ :=
    reserves_adding b account amountA.toInt amountB.toInt shares.toInt
  obtain ⟨hleA, hleB⟩ := h.mul_shares_le hsupply
  rw [Keeps, Keeps, hA, hB, hnew]
  constructor <;> linarith

theorem Removes.keeps {shares minA minB deadline amountA amountB : Int64}
    (h : b.Removes context shares minA minB deadline account amountA amountB) (hlive : b.Live) :
    b.Keeps (b.posted (b.removing account amountA.toInt amountB.toInt shares.toInt)) .a ∧
      b.Keeps (b.posted (b.removing account amountA.toInt amountB.toInt shares.toInt)) .b := by
  obtain ⟨hA, hB, hnew⟩ :=
    reserves_removing b account amountA.toInt amountB.toInt shares.toInt
  obtain ⟨hleA, hleB⟩ := h.amount_mul_le hlive
  rw [Keeps, Keeps, hA, hB, hnew]
  constructor <;> linarith

/-- Where each reserve keeps its proportion to the supply, the square of the supply stays within
the product of the reserves. -/
theorem Backed.of_keeps (hb : b.Backed) (hlive : b.Live) (hsupply : 0 < c.supply)
    (hA : b.Keeps c .a) (hB : b.Keeps c .b) : c.Backed := by
  obtain ⟨hbA, hbB, hbT⟩ := hlive
  have hcA : 0 < c.reserve .a :=
    pos_of_mul_pos_left (lt_of_lt_of_le (Int.mul_pos hbA hsupply) hA) hbT.le
  have hcB : 0 < c.reserve .b :=
    pos_of_mul_pos_left (lt_of_lt_of_le (Int.mul_pos hbB hsupply) hB) hbT.le
  have hproduct := Int.mul_le_mul hA hB (Int.mul_pos hbB hsupply).le (Int.mul_pos hcA hbT).le
  have hsquare := Int.mul_le_mul_of_nonneg_right hb.square_le (mul_self_nonneg c.supply)
  refine ⟨?_, .inl ⟨hcA, hcB, hsupply⟩⟩
  refine le_of_mul_le_mul_left ?_ (Int.mul_pos hbT hbT)
  calc b.supply * b.supply * (c.supply * c.supply)
      ≤ b.reserve .a * b.reserve .b * (c.supply * c.supply) := hsquare
    _ = b.reserve .a * c.supply * (b.reserve .b * c.supply) := by ring
    _ ≤ c.reserve .a * b.supply * (c.reserve .b * b.supply) := hproduct
    _ = b.supply * b.supply * (c.reserve .a * c.reserve .b) := by ring

theorem Backed.of_eq (hb : b.Backed) (hA : c.reserve .a = b.reserve .a)
    (hB : c.reserve .b = b.reserve .b) (hsupply : c.supply = b.supply) : c.Backed := by
  constructor
  · rw [hA, hB, hsupply]
    exact hb.square_le
  · simpa only [Live, Empty, hA, hB, hsupply] using hb.live_or_empty

theorem Backed.live (hb : b.Backed) (h : b.supply ≠ 0 ∨ b.reserve .b ≠ 0) : b.Live := by
  refine hb.live_or_empty.resolve_right ?_
  rintro ⟨-, hB, hT⟩
  rcases h with h | h
  · exact h hT
  · exact h hB

theorem Backed.removing (hb : b.Backed)
    {shares minA minB deadline amountA amountB : Int64}
    (h : b.Removes context shares minA minB deadline account amountA amountB) :
    (b.posted (b.removing account amountA.toInt amountB.toInt shares.toInt)).Backed := by
  have hlive := hb.live (.inl h.supply_ne)
  obtain ⟨hA, hB, hT⟩ := reserves_removing b account amountA.toInt amountB.toInt shares.toInt
  rcases h.supply.lt_or_eq with hlt | hall
  · obtain ⟨hkeepsA, hkeepsB⟩ := h.keeps hlive
    exact hb.of_keeps hlive (by omega) hkeepsA hkeepsB
  · -- the last share takes both reserves with it
    have hallA : amountA.toInt = b.reserve .a := by
      rw [h.amountA_eq, hall, Int.mul_tdiv_cancel_left _ h.supply_ne]
    have hallB : amountB.toInt = b.reserve .b := by
      rw [h.amountB_eq, hall, Int.mul_tdiv_cancel_left _ h.supply_ne]
    have hempty : (b.posted (b.removing account amountA.toInt amountB.toInt shares.toInt)).Empty :=
      ⟨by omega, by omega, by omega⟩
    refine ⟨?_, .inr hempty⟩
    rw [hempty.1, hempty.2.1, hempty.2.2]

theorem Backed.trading (hb : b.Backed) {deadline amountIn amountOut : Int64}
    (h : b.Trades context deadline account amountIn amountOut) :
    (b.posted (b.trading account amountIn.toInt amountOut.toInt)).Backed := by
  have hout := h.out_lt
  have hin := h.positiveIn
  have hpaid := h.positiveOut
  obtain ⟨hbA, hbB, hbT⟩ := hb.live (.inr (by omega))
  obtain ⟨hA, hB, hT⟩ := reserves_trading b account amountIn.toInt amountOut.toInt
  constructor
  · rw [hA, hB, hT]
    exact Int.le_trans hb.square_le h.product_le
  · left
    refine ⟨?_, ?_, ?_⟩ <;> omega

/-- Every call that goes through leaves the shares backed. -/
theorem Backed.posted (hb : b.Backed) {call : Call} {ps : List Posting} (h : b.Permits call ps) :
    (b.posted ps).Backed := by
  cases h with
  | supersede signer => exact hb.of_eq rfl rfl rfl
  | @setSwap context amountA amountB shares h =>
      obtain ⟨hA, hB, hT⟩ := reserves_opening b amountA.toInt amountB.toInt shares.toInt
      constructor
      · rw [hA, hB, hT]
        exact h.root_le
      · rw [Live, hA, hB, hT]
        exact .inl ⟨h.positiveA, h.positiveB, h.positive⟩
  | @addLiquidity _ _ _ _ _ _ account amountA amountB shares h =>
      have hlive := hb.live (.inr h.reserveB.ne')
      have hpositive := h.positive
      have hsupply := hlive.2.2
      obtain ⟨-, -, hT⟩ := reserves_adding b account amountA.toInt amountB.toInt shares.toInt
      obtain ⟨hkeepsA, hkeepsB⟩ := h.keeps hsupply.le
      exact hb.of_keeps hlive (by omega) hkeepsA hkeepsB
  | removeLiquidity h => exact hb.removing h
  | buy h => exact hb.trading h.toTrades
  | sell h => exact hb.trading h.toTrades
  | deposit role traded positive credit => exact hb.of_eq rfl rfl rfl
  | fund role maker positive fits => exact hb.of_eq rfl rfl rfl
  | withdraw role positive covered => exact hb.of_eq rfl rfl rfl

/-- Once the pool is open, every call that goes through keeps the value of a share. -/
theorem Backed.keepsValue (hb : b.Backed) (henabled : b.enabled = true) {call : Call}
    {ps : List Posting} (h : b.Permits call ps) : b.KeepsValue (b.posted ps) call := by
  have htrading : ∀ {context deadline account amountIn amountOut},
      b.Trades context deadline account amountIn amountOut →
      ¬(call.Invokes addLiquidityId ∨ call.Invokes removeLiquidityId) →
      b.KeepsValue (b.posted (b.trading account amountIn.toInt amountOut.toInt)) call := by
    intro context deadline account amountIn amountOut h hcall
    obtain ⟨hA, hB, hT⟩ := reserves_trading b account amountIn.toInt amountOut.toInt
    refine .of_product hT ?_ hcall
    rw [hA, hB]
    exact h.product_le
  cases h with
  | supersede signer => exact .of_eq rfl rfl rfl
  | setSwap h => simp [h.closed] at henabled
  | @addLiquidity _ _ _ _ _ _ account amountA amountB shares h =>
      have hpositive := h.positive
      obtain ⟨-, -, hsupply⟩ := hb.live (.inr h.reserveB.ne')
      obtain ⟨-, -, hT⟩ := reserves_adding b account amountA.toInt amountB.toInt shares.toInt
      obtain ⟨hkeepsA, hkeepsB⟩ := h.keeps hsupply.le
      exact .of_keeps h.reserveA.le h.reserveB.le (by omega) hkeepsA hkeepsB
        (by simp [Call.Invokes, addLiquidityId, swapForExactId, swapExactId])
  | @removeLiquidity _ shares _ _ _ account amountA amountB h =>
      have hlive := hb.live (.inl h.supply_ne)
      have hle := h.supply
      obtain ⟨-, -, hT⟩ := reserves_removing b account amountA.toInt amountB.toInt shares.toInt
      obtain ⟨hkeepsA, hkeepsB⟩ := h.keeps hlive
      exact .of_keeps hlive.1.le hlive.2.1.le (by omega) hkeepsA hkeepsB
        (by simp [Call.Invokes, removeLiquidityId, swapForExactId, swapExactId])
  | buy h =>
      exact htrading h.toTrades
        (by simp [Call.Invokes, addLiquidityId, removeLiquidityId, swapForExactId])
  | sell h =>
      exact htrading h.toTrades
        (by simp [Call.Invokes, addLiquidityId, removeLiquidityId, swapExactId])
  | deposit role traded positive credit => exact .of_eq rfl rfl rfl
  | fund role maker positive fits => exact .of_eq rfl rfl rfl
  | withdraw role positive covered => exact .of_eq rfl rfl rfl

theorem backed_initial (maker : Address) (token : Asset → TokenId) (minimum : Int) :
    (initial maker token minimum).Backed :=
  ⟨by simp [initial], .inr ⟨rfl, rfl, rfl⟩⟩

end Book

/-! ### Runs -/

/-- In every state that a deployed pool reaches, the square of the supply is within the product
of the reserves, and the pool is live or empty. Once it is open, every call that goes through
keeps the value of a share. -/
theorem share_value_never_falls {context : Context} {args : List Value} {d : Deployment Store}
    (h : Deployment.deploy valid ({} : Store) context args = .ok d) (calls : List Call) :
    ∃ b : Book, b.Records (d.after calls).store ∧
      b.supply * b.supply ≤ b.reserve .a * b.reserve .b ∧ (b.Live ∨ b.Empty) ∧
      ∀ call next, (d.after calls).perform call = .ok next → b.enabled = true →
        ∃ c : Book, c.Records next.store ∧ b.KeepsValue c call := by
  obtain ⟨b, s, hafter, hrecords, hbacked⟩ := records_after (I := fun b _ => b.Backed)
    Book.backed_initial (fun b _ _ _ _ hb _ hpermits => hb.posted hpermits) h calls
  rw [hafter]
  refine ⟨b, hrecords, hbacked.square_le, hbacked.live_or_empty, ?_⟩
  intro call next hperform henabled
  obtain ⟨ps, hpermits, rfl⟩ := (perform_eq_ok_iff hrecords.toShows).mp hperform
  exact ⟨b.posted ps, hrecords.posted hpermits, hbacked.keepsValue henabled hpermits⟩

/-- The theorem at a pool that was opened and then trades. -/
theorem share_value_kept_by_sample_trade :
    ∃ d next, Sample.deployed = .ok d ∧ (d.after Sample.opening).perform Sample.trade = .ok next ∧
      ∃ b c : Book, b.Records (d.after Sample.opening).store ∧ b.enabled = true ∧
        b.supply * b.supply ≤ b.reserve .a * b.reserve .b ∧ (b.Live ∨ b.Empty) ∧
        c.Records next.store ∧ b.KeepsValue c Sample.trade := by
  obtain ⟨d, hd, hopen, next, hnext⟩ := Sample.exists_deployed
  obtain ⟨b, hrecords, hsquare, hlive, hcalls⟩ := share_value_never_falls hd Sample.opening
  have henabled := hopen b hrecords
  obtain ⟨c, hc, hkeeps⟩ := hcalls Sample.trade next hnext henabled
  exact ⟨d, next, hd, hnext, b, c, hrecords, henabled, hsquare, hlive, hc, hkeeps⟩

end ContractMachine.Pool
