import ContractMachine.Contracts.Pool
import ContractMachine.Proofs.Amounts
import ContractMachine.Proofs.Commit

/-! The books of a pool: its state in integers, the entries that a call posts to it, and how the
store of a deployed pool records it. -/

namespace ContractMachine.Pool

/-- The tokens that a pool deals with: the two that are traded, and the shares. -/
inductive Asset where
  | a
  | b
  | liquidity
  deriving DecidableEq

namespace Asset

def all : List Asset := [a, b, liquidity]

/-- A choice for each of them. -/
def choose {α : Type} (forA forB forLiquidity : α) : Asset → α
  | a => forA
  | b => forB
  | liquidity => forLiquidity

/-- The variable with the token id. -/
def tokenVar : Asset → SlotIndex := choose tokenAVar tokenBVar liquidityTokenVar

/-- The variable with what the pool itself has. -/
def reserveVar : Asset → SlotIndex := choose reserveAVar reserveBVar liquidityBudgetVar

def escrowMap : Asset → SlotIndex := choose escrowAMap escrowBMap escrowLiquidityMap

theorem escrowMap_inj {s t : Asset} : s.escrowMap = t.escrowMap ↔ s = t := by
  cases s <;> cases t <;> decide

end Asset

/-- The state of a pool. The reserve of shares is the budget from which they are given out. -/
structure Book where
  maker : Address
  token : Asset → TokenId
  enabled : Bool
  minimum : Int
  supply : Int
  reserve : Asset → Int
  escrow : Asset → Address → Int
  /-- Sum of the escrows of all accounts. -/
  escrowed : Asset → Int

/-- The number is the value of some amount. -/
def IsAmount (n : Int) : Prop := -9223372036854775808 ≤ n ∧ n < 9223372036854775808

theorem isAmount_toInt (x : Int64) : IsAmount x.toInt := ⟨x.le_toInt, x.toInt_lt⟩

theorem IsAmount.toInt_ofInt {n : Int} (h : IsAmount n) : (Int64.ofInt n).toInt = n :=
  Int64.toInt_ofInt_of_le h.1 h.2

theorem IsAmount.exists_toInt {n : Int} (h : IsAmount n) : ∃ x : Int64, x.toInt = n :=
  ⟨.ofInt n, h.toInt_ofInt⟩

theorem IsAmount.add {n d : Int} (h : IsAmount n) (hd : 0 < d)
    (hfits : n + d < 9223372036854775808) : IsAmount (n + d) := by
  obtain ⟨hlo, -⟩ := h
  constructor <;> omega

theorem IsAmount.sub {n d : Int} (h : IsAmount n) (hd : 0 < d) (hle : d ≤ n) :
    IsAmount (n - d) := by
  obtain ⟨-, hhi⟩ := h
  constructor <;> omega

namespace Book

/-- Every number that calls move has the property. -/
structure Every (P : Int → Prop) (b : Book) : Prop where
  supply : P b.supply
  reserve : ∀ t, P (b.reserve t)
  escrow : ∀ t account, P (b.escrow t account)

structure Bounded (b : Book) : Prop extends b.Every IsAmount where
  minimum : IsAmount b.minimum

/-- The content of every state variable. -/
def slots (b : Book) : List (SlotIndex × Value) :=
  [(makerVar, .address b.maker), (tokenAVar, .tokenId (b.token .a)),
    (tokenBVar, .tokenId (b.token .b)), (liquidityTokenVar, .tokenId (b.token .liquidity)),
    (swapEnabledVar, .boolean b.enabled), (minimumLiquidityVar, .amount (.ofInt b.minimum)),
    (reserveAVar, .amount (.ofInt (b.reserve .a))), (reserveBVar, .amount (.ofInt (b.reserve .b))),
    (totalSupplyVar, .amount (.ofInt b.supply)),
    (liquidityBudgetVar, .amount (.ofInt (b.reserve .liquidity)))]

/-- What can be read of the state is what is in the book; an escrow that was never used is zero. -/
structure Shows (b : Book) (v : View) : Prop where
  bounded : b.Bounded
  slots : ∀ e ∈ b.slots, v.var e.1 = some e.2
  escrow : ∀ t account,
    (v.entry t.escrowMap (.address account)).getD (.amount 0) =
      .amount (.ofInt (b.escrow t account))

/-- The store is that of a pool with this book: there are no entries but escrows, and they add up
to the totals. -/
structure Records (b : Book) (s : Store) : Prop extends b.Shows s.view where
  escrowed : ∀ t, s.total t.escrowMap = b.escrowed t
  listed : ∀ key value, s.entries.get? key = some value →
    ∃ (t : Asset) (account : Address), key = ⟨t.escrowMap, .address account⟩

end Book

/-! ### Postings -/

/-- An entry in the book: the new content of one place. -/
inductive Posting where
  | maker (account : Address)
  | enable
  | supply (n : Int)
  | reserve (t : Asset) (n : Int)
  | escrow (t : Asset) (account : Address) (n : Int)

namespace Posting

/-- The write that makes the entry. -/
def update : Posting → Update
  | maker account => .var makerVar (.address account)
  | enable => .var swapEnabledVar (.boolean true)
  | supply n => .var totalSupplyVar (.amount (.ofInt n))
  | reserve t n => .var t.reserveVar (.amount (.ofInt n))
  | escrow t account n => .entry t.escrowMap (.address account) (.amount (.ofInt n))

/-- The new number, if there is one, has the property. -/
def Every (P : Int → Prop) : Posting → Prop
  | maker _ | enable => True
  | supply n | reserve _ n | escrow _ _ n => P n

/-- Only postings to escrows write to their entries. -/
theorem mem_of_entry_mem {ps : List Posting} {t : Asset} {key value : Value}
    (h : .entry t.escrowMap key value ∈ ps.map update) :
    ∃ account n, key = .address account ∧ escrow t account n ∈ ps := by
  obtain ⟨p, hp, hupdate⟩ := List.mem_map.mp h
  cases p with
  | escrow u account n =>
      obtain ⟨hmap, hkey, -⟩ := Update.entry.inj hupdate
      obtain rfl := Asset.escrowMap_inj.mp hmap
      exact ⟨account, n, hkey.symm, hp⟩
  | _ => cases hupdate

end Posting

namespace Book

def post (b : Book) : Posting → Book
  | .maker account => { b with maker := account }
  | .enable => { b with enabled := true }
  | .supply n => { b with supply := n }
  | .reserve t n => { b with reserve := fun u => if u = t then n else b.reserve u }
  | .escrow t account n =>
    { b with
      escrow := fun u other => if u = t ∧ other = account then n else b.escrow u other
      escrowed := fun u => if u = t then b.escrowed t + n - b.escrow t account else b.escrowed u }

/-- The book after entries are posted in order. -/
def posted (b : Book) (ps : List Posting) : Book := ps.foldl post b

theorem Every.post {P : Int → Prop} {b : Book} (h : b.Every P) {p : Posting} (hp : p.Every P) :
    (b.post p).Every P := by
  cases p with
  | maker account => exact { h with }
  | enable => exact { h with }
  | supply n => exact { h with supply := hp }
  | reserve t n =>
      refine { h with reserve := fun u => ?_ }
      by_cases hu : u = t
      · simpa [Book.post, hu, Posting.Every] using hp
      · simpa [Book.post, hu] using h.reserve u
  | escrow t account n =>
      refine { h with escrow := fun u other => ?_ }
      by_cases hu : u = t ∧ other = account
      · simpa [Book.post, hu, Posting.Every] using hp
      · simpa [Book.post, hu] using h.escrow u other

theorem Every.posted {P : Int → Prop} {b : Book} (h : b.Every P) {ps : List Posting}
    (hps : ∀ p ∈ ps, p.Every P) : (b.posted ps).Every P := by
  induction ps generalizing b with
  | nil => exact h
  | cons p ps ih =>
      have hfirst := h.post (hps p List.mem_cons_self)
      exact ih hfirst fun q hq => hps q (List.mem_cons_of_mem _ hq)

theorem minimum_post (b : Book) (p : Posting) : (b.post p).minimum = b.minimum := by
  cases p <;> rfl

theorem minimum_posted (b : Book) (ps : List Posting) : (b.posted ps).minimum = b.minimum := by
  induction ps generalizing b with
  | nil => rfl
  | cons p ps ih => exact (ih (b.post p)).trans (minimum_post b p)

theorem bounded_post {b : Book} (h : b.Bounded) {p : Posting} (hp : p.Every IsAmount) :
    (b.post p).Bounded :=
  ⟨h.toEvery.post hp, (minimum_post b p).symm ▸ h.minimum⟩

/-! ### Posting to the store -/

theorem slots_post_of_var {b : Book} {p : Posting} {index : SlotIndex} {value : Value}
    (h : p.update = .var index value) :
    (b.post p).slots = b.slots.map fun e => if e.1 = index then (index, value) else e := by
  cases p with
  | maker account => obtain ⟨rfl, rfl⟩ := Update.var.inj h; rfl
  | enable => obtain ⟨rfl, rfl⟩ := Update.var.inj h; rfl
  | supply n => obtain ⟨rfl, rfl⟩ := Update.var.inj h; rfl
  | reserve t n => obtain ⟨rfl, rfl⟩ := Update.var.inj h; cases t <;> rfl
  | escrow t account n => cases h

theorem records_setVar {b : Book} {s : Store} (h : b.Records s) {p : Posting}
    (hp : p.Every IsAmount)
    {index : SlotIndex} {value : Value} (hupdate : p.update = .var index value) :
    (b.post p).Records (s.setVar index value) where
  bounded := bounded_post h.bounded hp
  slots e he := by
    rw [slots_post_of_var hupdate] at he
    obtain ⟨old, hold, rfl⟩ := List.mem_map.mp he
    by_cases hindex : old.1 = index
    · simp [hindex]
    · simp [hindex, h.slots old hold]
  escrow := by cases p with
    | escrow t account n => cases hupdate
    | _ => exact h.escrow
  escrowed := by cases p with
    | escrow t account n => cases hupdate
    | _ => exact h.escrowed
  listed := h.listed

theorem records_setEntry {b : Book} {s : Store} (h : b.Records s) (t : Asset) (account : Address)
    {n : Int} (hn : IsAmount n) :
    (b.post (.escrow t account n)).Records
      (s.setEntry t.escrowMap (.address account) (.amount (.ofInt n))) where
  bounded := bounded_post h.bounded hn
  slots := h.slots
  escrow u other := by
    by_cases hother : u = t ∧ other = account
    · obtain ⟨rfl, rfl⟩ := hother
      simp [post]
    · simpa [post, Asset.escrowMap_inj, hother] using h.escrow u other
  escrowed u := by
    have hold : ((s.view.entry t.escrowMap (.address account)).bind Value.number?).getD 0 =
        b.escrow t account := by
      have hshown := congrArg Value.number? (h.escrow t account)
      cases hentry : s.view.entry t.escrowMap (.address account) with
      | none => simpa [hentry, Value.number?, (h.bounded.escrow t account).toInt_ofInt] using hshown
      | some v => simp_all [Value.number?, (h.bounded.escrow t account).toInt_ofInt]
    rw [Store.total_setEntry, hold]
    by_cases hu : u = t
    · subst hu
      simp [post, h.escrowed, Value.number?, hn.toInt_ofInt]
    · have hmap : t.escrowMap ≠ u.escrowMap := fun hmap => hu (Asset.escrowMap_inj.mp hmap.symm)
      simp [post, hu, hmap, h.escrowed]
  listed key value hget := by
    rw [Store.setEntry, OrderedMap.get?_insert] at hget
    by_cases hkey : key = ⟨t.escrowMap, .address account⟩
    · exact ⟨t, account, hkey⟩
    · rw [if_neg hkey] at hget
      exact h.listed key value hget

theorem records_post {b : Book} {s : Store} {us : List Update} (h : b.Records (s.commit us))
    {p : Posting} (hp : p.Every IsAmount) : (b.post p).Records (s.commit (us ++ [p.update])) := by
  cases p with
  | escrow t account n =>
      rw [Posting.update, Store.commit_concat_entry]
      exact records_setEntry h t account hp
  | _ =>
      rw [Posting.update, Store.commit_concat_var]
      exact records_setVar h hp rfl

/-- Committing the writes of some postings is posting them to the book. -/
theorem records_posted {b : Book} {s : Store} (h : b.Records s) {ps : List Posting}
    (hps : ∀ p ∈ ps, p.Every IsAmount) :
    (b.posted ps).Records (s.commit (ps.map Posting.update)) := by
  induction ps using List.reverseRecOn with
  | nil => exact h
  | append_singleton ps p ih =>
      have hrest := ih fun q hq => hps q (List.mem_append_left _ hq)
      have hlast := records_post hrest (hps p (by simp))
      simpa [posted] using hlast

end Book

end ContractMachine.Pool
