import ContractMachine.Proofs.State.Numbering
import ContractMachine.Proofs.State.Operations
import Mathlib.Algebra.BigOperators.Ring.Finset
import Mathlib.Algebra.Order.BigOperators.Group.Finset
import Mathlib.Data.Fintype.Vector

/-! Units of a token are neither made nor lost. The balances of its holders add up to what was
issued of it, and that is at most its maximal supply; so no balance is ever too large, and a
request that fails leaves the ledger as it was. -/

namespace ContractMachine

/-- The digits of a byte string, as a vector of known length. -/
def FixedBytes.digits {n : Nat} (a : FixedBytes n) : List.Vector (Fin UInt8.size) n :=
  ⟨a.bytes.map UInt8.toFin, by simp [a.length_bytes]⟩

theorem FixedBytes.digits_injective {n : Nat} : (digits : FixedBytes n → _).Injective := by
  intro a b h
  have hdigits : a.bytes.map UInt8.toFin = b.bytes.map UInt8.toFin := congrArg Subtype.val h
  exact ext ((List.map_inj_right fun _ _ => UInt8.toFin_inj.mp).mp hdigits)

noncomputable instance {n : Nat} : Fintype (FixedBytes n) :=
  .ofInjective _ FixedBytes.digits_injective

/-! ### Amounts below a known one -/

theorem toInt_add_int64 {x y max : Int64} (hnonneg : 0 ≤ x.toInt + y.toInt)
    (hle : x.toInt + y.toInt ≤ max.toInt) : (x + y).toInt = x.toInt + y.toInt := by
  have hmax := max.toInt_lt
  rw [Int64.toInt_add, Int.bmod_eq_of_le] <;> omega

theorem toInt_sub_int64 {x y : Int64} (hnonneg : 0 ≤ y.toInt) (hle : y.toInt ≤ x.toInt) :
    (x - y).toInt = x.toInt - y.toInt := by
  have hmax := x.toInt_lt
  rw [Int64.toInt_sub, Int.bmod_eq_of_le] <;> omega

theorem int64?_ne_none {n : Int} {max : Int64} (hnonneg : 0 ≤ n) (hle : n ≤ max.toInt) :
    int64? n ≠ none := by
  have hmax := max.toInt_lt
  rw [int64?, if_pos (by omega)]
  exact Option.some_ne_none _

/-! ### Balances of one token -/

/-- The units that all holders have together. -/
noncomputable def unitsHeld (balance : Address → Int64) : Int := ∑ holder, (balance holder).toInt

theorem unitsHeld_eq_zero {balance : Address → Int64} (h : ∀ a, balance a = 0) :
    unitsHeld balance = 0 :=
  Finset.sum_eq_zero fun a _ => by rw [h a]; rfl

theorem unitsHeld_update (balance : Address → Int64) (holder : Address) (amount : Int64) :
    unitsHeld (Function.update balance holder amount) =
      unitsHeld balance + amount.toInt - (balance holder).toInt := by
  have hothers : ∀ a ∈ Finset.univ.erase holder,
      (Function.update balance holder amount a).toInt = (balance a).toInt :=
    fun a ha => by rw [Function.update_of_ne (Finset.ne_of_mem_erase ha)]
  rw [unitsHeld, unitsHeld, ← Finset.add_sum_erase _ _ (Finset.mem_univ holder),
    ← Finset.add_sum_erase _ (fun a => (balance a).toInt) (Finset.mem_univ holder),
    Finset.sum_congr rfl hothers, Function.update_self]
  omega

theorem update_nonneg {balance : Address → Int64} (h : ∀ a, 0 ≤ (balance a).toInt)
    (holder : Address) {amount : Int64} (hamount : 0 ≤ amount.toInt) (a : Address) :
    0 ≤ (Function.update balance holder amount a).toInt := by
  rw [Function.update_apply]
  split
  · exact hamount
  · exact h a

theorem le_unitsHeld {balance : Address → Int64} (h : ∀ a, 0 ≤ (balance a).toInt)
    (holder : Address) : (balance holder).toInt ≤ unitsHeld balance :=
  Finset.single_le_sum (fun a _ => h a) (Finset.mem_univ holder)

/-- The balances account for what was issued of a token. -/
structure Token.Backed (t : Token) (balance : Address → Int64) : Prop where
  issued_nonneg : 0 ≤ t.issued.toInt
  issued_le : t.issued.toInt ≤ t.maxSupply.toInt
  balance_nonneg : ∀ holder, 0 ≤ (balance holder).toInt
  unitsHeld_eq : unitsHeld balance = t.issued.toInt

namespace Token.Backed

variable {t : Token} {balance : Address → Int64} {amount : Int64}

theorem balance_le (h : t.Backed balance) (holder : Address) :
    (balance holder).toInt ≤ t.issued.toInt :=
  h.unitsHeld_eq ▸ le_unitsHeld h.balance_nonneg holder

theorem deposit (h : t.Backed balance) (hamount : 0 < amount.toInt)
    (hsupply : t.issued.toInt + amount.toInt ≤ t.maxSupply.toInt) {holder : Address}
    {credited : Int64} (hcredited : credited.toInt = (balance holder).toInt + amount.toInt) :
    { t with issued := t.issued + amount : Token }.Backed
      (Function.update balance holder credited) := by
  have hissued := h.issued_nonneg
  have hheld := h.balance_nonneg holder
  have hadd : (t.issued + amount).toInt = t.issued.toInt + amount.toInt :=
    toInt_add_int64 (by omega) hsupply
  refine ⟨?_, ?_, update_nonneg h.balance_nonneg holder (by omega), ?_⟩
  · rw [hadd]
    omega
  · rwa [hadd]
  · rw [unitsHeld_update, h.unitsHeld_eq, hadd]
    omega

/-- A deposit within the supply fits any balance. -/
theorem credit_ne_none (h : t.Backed balance) (hamount : 0 < amount.toInt)
    (hsupply : t.issued.toInt + amount.toInt ≤ t.maxSupply.toInt) (holder : Address) :
    int64? ((balance holder).toInt + amount.toInt) ≠ none := by
  have hheld := h.balance_nonneg holder
  have hle := h.balance_le holder
  exact int64?_ne_none (by omega) (by omega : _ ≤ t.maxSupply.toInt)

/-- Between the two halves of a transfer the holders lack the amount that is on its way. -/
theorem debit (h : t.Backed balance) (hamount : 0 < amount.toInt) {source : Address}
    (hheld : amount.toInt ≤ (balance source).toInt) :
    let debited := Function.update balance source (balance source - amount)
    (∀ a, 0 ≤ (debited a).toInt) ∧ unitsHeld debited = t.issued.toInt - amount.toInt := by
  have hsub : (balance source - amount).toInt = (balance source).toInt - amount.toInt :=
    toInt_sub_int64 (by omega) hheld
  refine ⟨update_nonneg h.balance_nonneg source (by omega), ?_⟩
  rw [unitsHeld_update, h.unitsHeld_eq, hsub]
  omega

theorem transfer (h : t.Backed balance) (hamount : 0 < amount.toInt) {source target : Address}
    (hheld : amount.toInt ≤ (balance source).toInt) {credited : Int64}
    (hcredited : credited.toInt =
      (Function.update balance source (balance source - amount) target).toInt + amount.toInt) :
    t.Backed (Function.update (Function.update balance source (balance source - amount)) target
      credited) := by
  obtain ⟨hnonneg, hsum⟩ := h.debit hamount hheld
  have htarget := hnonneg target
  refine ⟨h.issued_nonneg, h.issued_le, update_nonneg hnonneg target (by omega), ?_⟩
  rw [unitsHeld_update, hsum]
  omega

/-- What is on its way fits the balance of any target, as all units together do. -/
theorem debited_credit_ne_none (h : t.Backed balance) (hamount : 0 < amount.toInt)
    {source : Address} (hheld : amount.toInt ≤ (balance source).toInt) (target : Address) :
    int64? ((Function.update balance source (balance source - amount) target).toInt +
      amount.toInt) ≠ none := by
  obtain ⟨hnonneg, hsum⟩ := h.debit hamount hheld
  have htarget := hnonneg target
  have hle := le_unitsHeld hnonneg target
  exact int64?_ne_none (by omega) (by omega : _ ≤ t.issued.toInt)

end Token.Backed

/-! ### Views -/

/-- Every token that is counted is defined and backed by its balances; of the others nothing is
held. -/
structure View.Conserved (v : View) : Prop where
  defined : ∀ i, i < v.tokenCount → ∃ t, v.token i = some t ∧ t.Backed (v.balance i)
  undefined : ∀ i, v.tokenCount ≤ i → v.token i = none ∧ ∀ holder, v.balance i holder = 0

namespace View

theorem balance_update (v : View) (i : TokenIndex) (holder : Address) (amount : Int64) :
    (v.update (.balance i holder amount)).balance i =
      Function.update (v.balance i) holder amount := by
  funext a
  simp [update, Function.update_apply]

theorem balance_update_of_ne (v : View) {i j : TokenIndex} (h : j ≠ i) (holder : Address)
    (amount : Int64) : (v.update (.balance i holder amount)).balance j = v.balance j := by
  funext a
  simp [update, h]

namespace Conserved

variable {v : View}

theorem backed (h : v.Conserved) {i : TokenIndex} {t : Token} (ht : v.token i = some t) :
    i < v.tokenCount ∧ t.Backed (v.balance i) := by
  rcases UInt32.lt_or_le i v.tokenCount with hi | hi
  · obtain ⟨u, hu, hbacked⟩ := h.defined i hi
    rw [ht] at hu
    cases hu
    exact ⟨hi, hbacked⟩
  · rw [(h.undefined i hi).1] at ht
    cases ht

theorem dense (h : v.Conserved) : v.Dense := by
  intro i
  rw [Option.isSome_iff_exists]
  constructor
  · rintro ⟨t, ht⟩
    exact (h.backed ht).1
  · intro hi
    obtain ⟨t, ht, -⟩ := h.defined i hi
    exact ⟨t, ht⟩

/-- It is enough to look at the one token that changes. -/
theorem of_frame {w : View} (h : v.Conserved) {i : TokenIndex} {t u : Token}
    (ht : v.token i = some t) (hcount : w.tokenCount = v.tokenCount)
    (hothers : ∀ j, j ≠ i → w.token j = v.token j ∧ w.balance j = v.balance j)
    (hu : w.token i = some u) (hbacked : u.Backed (w.balance i)) : w.Conserved := by
  obtain ⟨hi, -⟩ := h.backed ht
  constructor
  · intro j hj
    rw [hcount] at hj
    by_cases hji : j = i
    · subst hji
      exact ⟨u, hu, hbacked⟩
    · obtain ⟨htoken, hbalance⟩ := hothers j hji
      rw [htoken, hbalance]
      exact h.defined j hj
  · intro j hj
    rw [hcount] at hj
    have hji : j ≠ i := fun he => UInt32.not_lt.mpr hj (he ▸ hi)
    obtain ⟨htoken, hbalance⟩ := hothers j hji
    rw [htoken, hbalance]
    exact h.undefined j hj

/-- A new token has no holders yet. -/
theorem newToken (h : v.Conserved) {maxSupply : Int64} (unit : Int64) (description : String)
    (hmax : 0 < maxSupply.toInt) (hcount : v.tokenCount.toNat + 1 < 4294967296) :
    ((v.update (.token v.tokenCount ⟨maxSupply, unit, description, 0⟩)).update
      (.tokenCount (v.tokenCount + 1))).Conserved := by
  have hnext := toNat_succ_tokenIndex hcount
  obtain ⟨-, hempty⟩ := h.undefined v.tokenCount (UInt32.le_refl _)
  constructor
  · intro i hi
    have hi : i.toNat < v.tokenCount.toNat + 1 := hnext ▸ UInt32.lt_iff_toNat_lt.mp hi
    by_cases hnew : i = v.tokenCount
    · refine ⟨_, if_pos hnew, ?_⟩
      subst hnew
      refine ⟨Int.le_refl 0, Int.le_of_lt hmax, fun a => ?_, unitsHeld_eq_zero hempty⟩
      exact (congrArg Int64.toInt (hempty a)).ge
    · have hne : i.toNat ≠ v.tokenCount.toNat := fun he => hnew (UInt32.toNat_inj.mp he)
      obtain ⟨t, ht, hbacked⟩ := h.defined i (UInt32.lt_iff_toNat_lt.mpr (by omega))
      exact ⟨t, (if_neg hnew).trans ht, hbacked⟩
  · intro i hi
    have hi : v.tokenCount.toNat + 1 ≤ i.toNat := hnext ▸ UInt32.le_iff_toNat_le.mp hi
    have hnew : i ≠ v.tokenCount := by
      rintro rfl
      omega
    obtain ⟨htoken, hbalance⟩ := h.undefined i (UInt32.le_iff_toNat_le.mpr (by omega))
    exact ⟨(if_neg hnew).trans htoken, hbalance⟩

theorem foldl_update_ledger {descriptions : List String} {us : List Update} (h : v.Conserved)
    (hus : v.LedgerWrites descriptions us) : (us.foldl View.update v).Conserved := by
  cases hus with
  | nothing => exact h
  | @newToken maxSupply unit description hdescription hmax hunit hcount =>
      exact h.newToken unit description hmax hcount
  | @deposit i t holder amount credited htoken hamount hsupply hbalance =>
      obtain ⟨-, hbacked⟩ := h.backed htoken
      refine h.of_frame htoken rfl (fun j hj => ⟨if_neg hj, ?_⟩) (if_pos rfl) ?_
      · exact balance_update_of_ne _ hj holder credited
      · rw [List.foldl_cons, List.foldl_cons, List.foldl_nil, balance_update]
        exact hbacked.deposit hamount hsupply hbalance
  | @transfer i t source target amount credited htoken hamount hheld hcredited =>
      obtain ⟨-, hbacked⟩ := h.backed htoken
      rw [balance_update] at hcredited
      refine h.of_frame htoken rfl (fun j hj => ⟨rfl, ?_⟩) htoken ?_
      · exact (balance_update_of_ne _ hj target credited).trans (balance_update_of_ne v hj source _)
      · rw [List.foldl_cons, List.foldl_cons, List.foldl_nil, balance_update, balance_update]
        exact hbacked.transfer hamount hheld hcredited
  | debit target htoken hamount hheld hfull =>
      -- what the target would get too much of is more than was ever issued
      obtain ⟨-, hbacked⟩ := h.backed htoken
      rw [balance_update] at hfull
      exact absurd hfull (hbacked.debited_credit_ne_none hamount hheld target)

/-- Every kind of writes keeps the ledger in order. -/
theorem foldl_update {us : List Update} (h : v.Conserved) (hus : v.Writes us) :
    (us.foldl View.update v).Conserved := by
  cases hus with
  | nothing => exact h
  | var => exact ⟨h.defined, h.undefined⟩
  | entry => exact ⟨h.defined, h.undefined⟩
  | ledger hus => exact h.foldl_update_ledger hus

end Conserved

/-! ### Failures -/

theorem knownToken_ne_overflow (v : View) (index : Int) :
    v.knownToken index ≠ .error .overflow := by
  fun_cases knownToken v index <;> simp

theorem Conserved.deposit_ne_overflow {v : View} (h : v.Conserved) (index : Int) (holder : Address)
    (amount : Int64) : (v.deposit index holder amount).answer ≠ .error .overflow := by
  fun_cases deposit v index holder amount with
  | case2 hamount e hknown =>
      rintro ⟨⟩
      exact v.knownToken_ne_overflow index hknown
  | case4 hamount i t hknown hsupply hfull =>
      obtain ⟨-, htoken⟩ := knownToken_eq_ok_iff.mp hknown
      obtain ⟨-, hbacked⟩ := h.backed htoken
      exact absurd hfull (hbacked.credit_ne_none (by omega) hsupply holder)
  | _ => simp [LedgerOutcome.refuse]

theorem Conserved.transfer_ne_overflow {v : View} (h : v.Conserved) (index : Int)
    (source target : Address) (amount : Int64) :
    (v.transfer index source target amount).answer ≠ .error .overflow := by
  fun_cases transfer v index source target amount with
  | case2 hamount e hknown =>
      rintro ⟨⟩
      exact v.knownToken_ne_overflow index hknown
  | case5 hamount i t hknown held hheld debit hfull =>
      obtain ⟨-, htoken⟩ := knownToken_eq_ok_iff.mp hknown
      obtain ⟨-, hbacked⟩ := h.backed htoken
      rw [balance_update] at hfull
      exact absurd hfull
        (hbacked.debited_credit_ne_none (by omega) (Int.not_lt.mp hheld) target)
  | _ => simp [LedgerOutcome.refuse]

theorem updates_newToken_of_error {v : View} {maxSupply unit : Int64} {description : String}
    {e : TokenError} (h : (v.newToken maxSupply unit description).answer = .error e) :
    (v.newToken maxSupply unit description).updates = [] := by
  revert h
  fun_cases newToken v maxSupply unit description <;> simp [LedgerOutcome.refuse]

theorem updates_deposit_of_error {v : View} {index : Int} {holder : Address} {amount : Int64}
    {e : TokenError} (h : (v.deposit index holder amount).answer = .error e) :
    (v.deposit index holder amount).updates = [] := by
  revert h
  fun_cases deposit v index holder amount <;> simp [LedgerOutcome.refuse]

/-- Only an overflow stops a transfer with a write already made. -/
theorem updates_transfer_of_error {v : View} {index : Int} {source target : Address}
    {amount : Int64} {e : TokenError}
    (h : (v.transfer index source target amount).answer = .error e) (he : e ≠ .overflow) :
    (v.transfer index source target amount).updates = [] := by
  revert h
  fun_cases transfer v index source target amount <;> simp [LedgerOutcome.refuse, he.symm]

end View

theorem Answer.ofExcept_eq_refused_iff {α : Type} {item : α → Answer}
    (hitem : ∀ a e, item a ≠ .refused e) {result : Except TokenError α} {e : TokenError} :
    Answer.ofExcept item result = .refused e ↔ result = .error e := by
  cases result with
  | ok a => simpa [ofExcept] using hitem a e
  | error cause => simp [ofExcept]

/-- A request that is refused writes nothing. -/
theorem View.Conserved.respond_refused {v : View} (h : v.Conserved) {op : Operation}
    {e : TokenError} (hop : (v.respond op).1 = .refused e) : (v.respond op).2 = [] := by
  cases op with
  | setVar index value => cases hop
  | setEntry index key value => cases hop
  | newToken maxSupply unit description =>
      exact updates_newToken_of_error ((Answer.ofExcept_eq_refused_iff (by simp)).mp hop)
  | deposit index holder amount =>
      exact updates_deposit_of_error ((Answer.ofExcept_eq_refused_iff (by simp)).mp hop)
  | transfer index source target amount =>
      have hanswer := (Answer.ofExcept_eq_refused_iff (by simp)).mp hop
      refine updates_transfer_of_error hanswer ?_
      rintro rfl
      exact h.transfer_ne_overflow index source target amount hanswer
  | _ => rfl

/-! ### Sessions -/

/-- Operations on one overlay, which is then committed or dropped. -/
structure Session where
  operations : List Operation
  committed : Bool

namespace Store

/-- The overlay above a store after some operations. -/
def overlay (s : Store) (ops : List Operation) : Overlay :=
  (performAll Overlay.perform ops { base := s.view }).2

def session (s : Store) (x : Session) : Store :=
  if x.committed then s.apply (s.overlay x.operations).writes else s

theorem overlay_conserved {s : Store} (h : s.view.Conserved) (ops : List Operation) :
    (s.overlay ops).view.Conserved :=
  Overlay.view_performAll (fun _ _ hv hus => hv.foldl_update hus) ops h

/-- Committing an overlay makes the store read as the overlay did. -/
theorem view_apply_overlay {s : Store} (h : s.view.Conserved) (ops : List Operation) :
    (s.apply (s.overlay ops).writes).view = (s.overlay ops).view := by
  have hoverlay : Overlay.mk s.view (s.overlay ops).writes = s.overlay ops := by
    rw [← show (s.overlay ops).base = s.view from Overlay.base_performAll ops _]
  have hshown := overlay_conserved h ops
  rw [view_apply (by rw [hoverlay]; exact hshown.dense), hoverlay]

theorem session_conserved {s : Store} (h : s.view.Conserved) (x : Session) :
    (s.session x).view.Conserved := by
  rw [session]
  split
  · rw [view_apply_overlay h]
    exact overlay_conserved h x.operations
  · exact h

theorem foldl_session_conserved (sessions : List Session) {s : Store} (h : s.view.Conserved) :
    (sessions.foldl session s).view.Conserved := by
  induction sessions generalizing s with
  | nil => exact h
  | cons x rest ih => exact ih (session_conserved h x)

theorem empty_conserved : ({} : Store).view.Conserved :=
  ⟨fun _ hi => absurd hi UInt32.not_lt_zero, fun _ _ => ⟨rfl, fun _ => rfl⟩⟩

/-- Whatever was done on an empty store, in overlays that were committed or dropped, the balances
of every token add up to what was issued of it. So deposits and transfers do not overflow, and a
request that fails changes nothing. -/
theorem ledger_conserved (sessions : List Session) (ops : List Operation) :
    let s := sessions.foldl session {}
    let o := s.overlay ops
    s.view.Conserved ∧ o.view.Conserved ∧
      (∀ index holder amount, (o.perform (.deposit index holder amount)).1 ≠ .refused .overflow) ∧
      (∀ index source target amount,
        (o.perform (.transfer index source target amount)).1 ≠ .refused .overflow) ∧
      ∀ op e, (o.perform op).1 = .refused e → (o.perform op).2.view = o.view := by
  intro s o
  have hs : s.view.Conserved := foldl_session_conserved sessions empty_conserved
  have ho : o.view.Conserved := overlay_conserved hs ops
  refine ⟨hs, ho, ?_, ?_, ?_⟩
  · intro index holder amount hrefused
    have hanswer := (Answer.ofExcept_eq_refused_iff (by simp)).mp hrefused
    exact ho.deposit_ne_overflow index holder amount hanswer
  · intro index source target amount hrefused
    have hanswer := (Answer.ofExcept_eq_refused_iff (by simp)).mp hrefused
    exact ho.transfer_ne_overflow index source target amount hanswer
  · intro op e hrefused
    rw [Overlay.view_perform, ho.respond_refused hrefused]
    rfl

/-- The target of an open transfer asks for more than it was given. -/
theorem refused_return_changes_nothing :
    let holder : Address := ⟨List.replicate 26 1, rfl⟩
    let other : Address := ⟨List.replicate 26 2, rfl⟩
    let s := [⟨[.newToken 50 1 "gold", .deposit 0 holder 7], true⟩,
      ⟨[.transfer 0 holder other 7], false⟩].foldl session {}
    let o := s.overlay [.transfer 0 holder other 3]
    let back := Operation.transfer 0 other holder 4
    (o.perform back).1 = .refused (.insufficientBalance 3 4) ∧
      (o.perform back).2.view = o.view := by
  intro holder other s o back
  have hrefused : (o.perform back).1 = .refused (.insufficientBalance 3 4) := by decide +kernel
  obtain ⟨-, -, -, -, hkeep⟩ := ledger_conserved [⟨[.newToken 50 1 "gold", .deposit 0 holder 7],
    true⟩, ⟨[.transfer 0 holder other 7], false⟩] [.transfer 0 holder other 3]
  exact ⟨hrefused, hkeep back _ hrefused⟩

end Store

end ContractMachine
