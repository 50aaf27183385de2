import ContractMachine.Proofs.State.Conservation

/-! Token definitions are only added. A token that is once defined keeps its index and what it
was defined as, while the units issued of it can only become more; a new token gets the index
behind all others, and the commit puts it there. -/

namespace ContractMachine

/-- The later token is the earlier one, of which no fewer units are issued. -/
structure Token.GrowsTo (earlier later : Token) : Prop where
  maxSupply_eq : later.maxSupply = earlier.maxSupply
  unit_eq : later.unit = earlier.unit
  description_eq : later.description = earlier.description
  issued_le : earlier.issued.toInt ≤ later.issued.toInt

namespace Token.GrowsTo

theorem refl (t : Token) : t.GrowsTo t :=
  ⟨rfl, rfl, rfl, Int.le_refl _⟩

theorem trans {t u w : Token} (h : t.GrowsTo u) (h' : u.GrowsTo w) : t.GrowsTo w where
  maxSupply_eq := h'.maxSupply_eq.trans h.maxSupply_eq
  unit_eq := h'.unit_eq.trans h.unit_eq
  description_eq := h'.description_eq.trans h.description_eq
  issued_le := Int.le_trans h.issued_le h'.issued_le

theorem deposit {t : Token} {amount : Int64} (hissued : 0 ≤ t.issued.toInt)
    (hamount : 0 < amount.toInt) (hsupply : t.issued.toInt + amount.toInt ≤ t.maxSupply.toInt) :
    t.GrowsTo { t with issued := t.issued + amount } := by
  refine ⟨rfl, rfl, rfl, ?_⟩
  rw [toInt_add_int64 (by omega) hsupply]
  omega

end Token.GrowsTo

/-- Every token of the earlier state is still there, under its index. -/
structure View.GrowsTo (earlier later : View) : Prop where
  tokenCount_le : earlier.tokenCount ≤ later.tokenCount
  token : ∀ i t, earlier.token i = some t → ∃ u, later.token i = some u ∧ t.GrowsTo u

namespace View

theorem GrowsTo.of_tokens_eq {v w : View} (hcount : w.tokenCount = v.tokenCount)
    (htoken : w.token = v.token) : v.GrowsTo w :=
  ⟨hcount ▸ UInt32.le_refl _, fun _ t ht => ⟨t, htoken ▸ ht, .refl t⟩⟩

theorem GrowsTo.refl (v : View) : v.GrowsTo v :=
  .of_tokens_eq rfl rfl

theorem GrowsTo.trans {u v w : View} (h : u.GrowsTo v) (h' : v.GrowsTo w) : u.GrowsTo w := by
  refine ⟨UInt32.le_trans h.tokenCount_le h'.tokenCount_le, fun i t ht => ?_⟩
  obtain ⟨t', ht', hgrows⟩ := h.token i t ht
  obtain ⟨t'', ht'', hgrows'⟩ := h'.token i t' ht'
  exact ⟨t'', ht'', hgrows.trans hgrows'⟩

/-! ### What one operation does to the definitions -/

namespace Conserved

variable {v : View}

/-- The next index is free, so that a new token replaces none. -/
theorem growsTo_newToken (h : v.Conserved) (token : Token)
    (hcount : v.tokenCount.toNat + 1 < 4294967296) :
    v.GrowsTo ((v.update (.token v.tokenCount token)).update
      (.tokenCount (v.tokenCount + 1))) := by
  constructor
  · rw [UInt32.le_iff_toNat_le]
    exact (Nat.le_succ _).trans (toNat_succ_tokenIndex hcount).ge
  · intro i t ht
    obtain ⟨hi, -⟩ := h.backed ht
    exact ⟨t, (if_neg (UInt32.ne_of_lt hi)).trans ht, .refl t⟩

theorem growsTo_deposit (h : v.Conserved) {i : TokenIndex} {token : Token} {amount : Int64}
    (htoken : v.token i = some token) (hamount : 0 < amount.toInt)
    (hsupply : token.issued.toInt + amount.toInt ≤ token.maxSupply.toInt) (holder : Address)
    (balance : Int64) :
    v.GrowsTo ((v.update (.token i { token with issued := token.issued + amount })).update
      (.balance i holder balance)) := by
  obtain ⟨-, hbacked⟩ := h.backed htoken
  refine ⟨UInt32.le_refl _, fun j t ht => ?_⟩
  by_cases hj : j = i
  · subst hj
    obtain rfl : token = t := Option.some.inj (htoken.symm.trans ht)
    exact ⟨_, if_pos rfl, .deposit hbacked.issued_nonneg hamount hsupply⟩
  · exact ⟨t, (if_neg hj).trans ht, .refl t⟩

theorem growsTo_foldl_update {us : List Update} (h : v.Conserved) (hus : v.Writes us) :
    v.GrowsTo (us.foldl View.update v) := by
  cases hus with
  | ledger hus =>
      cases hus with
      | newToken hdescription hmax hunit hcount => exact h.growsTo_newToken _ hcount
      | deposit htoken hamount hsupply hbalance =>
          exact h.growsTo_deposit htoken hamount hsupply _ _
      | _ => exact .of_tokens_eq rfl rfl
  | _ => exact .of_tokens_eq rfl rfl

end Conserved

theorem answer_newToken_eq_ok {v : View} {maxSupply unit : Int64} {description : String}
    {i : TokenIndex} (h : (v.newToken maxSupply unit description).answer = .ok i) :
    i = v.tokenCount ∧
      (v.newToken maxSupply unit description).updates =
        [.token v.tokenCount ⟨maxSupply, unit, description, 0⟩,
          .tokenCount (v.tokenCount + 1)] := by
  revert h
  fun_cases newToken v maxSupply unit description with
  | case2 hvalid index hcount =>
      intro h
      exact ⟨(Except.ok.inj h).symm, rfl⟩
  | _ => simp [LedgerOutcome.refuse]

end View

theorem Answer.ofExcept_eq_index_iff {result : Except TokenError TokenIndex} {i : TokenIndex} :
    Answer.ofExcept .index result = .index i ↔ result = .ok i := by
  cases result <;> simp [ofExcept]

/-! ### Overlays and sessions -/

theorem performAll_append {σ : Type} (perform : σ → Operation → Answer × σ)
    (before rest : List Operation) (s : σ) :
    (performAll perform (before ++ rest) s).2 =
      (performAll perform rest (performAll perform before s).2).2 := by
  induction before generalizing s with
  | nil => rfl
  | cons op before ih => exact ih (perform s op).2

namespace Overlay

variable {o : Overlay}

theorem growsTo_performAll (h : o.view.Conserved) (ops : List Operation) :
    o.view.GrowsTo (performAll perform ops o).2.view := by
  have hrun : (performAll perform ops o).2.view.Conserved ∧
      o.view.GrowsTo (performAll perform ops o).2.view := by
    refine view_performAll (P := fun w => w.Conserved ∧ o.view.GrowsTo w) ?_ ops ⟨h, .refl _⟩
    rintro w us ⟨hw, hgrows⟩ hus
    exact ⟨hw.foldl_update hus, hgrows.trans (hw.growsTo_foldl_update hus)⟩
  exact hrun.2

/-- A request for a new token that is granted gives it the next index. -/
theorem perform_newToken {maxSupply unit : Int64} {description : String} {i : TokenIndex}
    (h : (o.perform (.newToken maxSupply unit description)).1 = .index i) :
    i = o.view.tokenCount ∧
      (o.perform (.newToken maxSupply unit description)).2.view.token i =
        some ⟨maxSupply, unit, description, 0⟩ := by
  have hanswer := Answer.ofExcept_eq_index_iff.mp h
  obtain ⟨rfl, hupdates⟩ := View.answer_newToken_eq_ok hanswer
  refine ⟨rfl, ?_⟩
  rw [view_perform, View.respond, LedgerOutcome.respond, hupdates]
  exact if_pos rfl

theorem perform_conserved (h : o.view.Conserved) (op : Operation) :
    (o.perform op).2.view.Conserved := by
  rw [view_perform]
  exact h.foldl_update (o.view.writes_respond op)

end Overlay

namespace Store

variable {s : Store}

theorem growsTo_overlay (h : s.view.Conserved) (ops : List Operation) :
    s.view.GrowsTo (s.overlay ops).view :=
  Overlay.growsTo_performAll (o := { base := s.view }) h ops

theorem growsTo_session (h : s.view.Conserved) (x : Session) :
    s.view.GrowsTo (s.session x).view := by
  rw [session]
  split
  · rw [view_apply_overlay h]
    exact growsTo_overlay h x.operations
  · exact .refl _

theorem growsTo_foldl_session (sessions : List Session) (h : s.view.Conserved) :
    s.view.GrowsTo (sessions.foldl session s).view := by
  induction sessions generalizing s with
  | nil => exact .refl _
  | cons x rest ih => exact (growsTo_session h x).trans (ih (session_conserved h x))

/-- The definition of a new token is committed under the index that was given out, whatever the
overlay is used for after that. -/
theorem token_session_newToken (h : s.view.Conserved) {before : List Operation}
    {maxSupply unit : Int64} {description : String} {i : TokenIndex}
    (hanswer : ((s.overlay before).perform (.newToken maxSupply unit description)).1 = .index i)
    (rest : List Operation) :
    ∃ t, (s.session ⟨before ++ .newToken maxSupply unit description :: rest, true⟩).view.token i =
        some t ∧ Token.GrowsTo ⟨maxSupply, unit, description, 0⟩ t := by
  have hopen := overlay_conserved h before
  obtain ⟨-, hdefined⟩ := Overlay.perform_newToken hanswer
  have hkept := Overlay.perform_conserved hopen (.newToken maxSupply unit description)
  have hlater := (Overlay.growsTo_performAll hkept rest).token i _ hdefined
  rw [session, if_pos rfl, view_apply_overlay h, overlay, performAll_append]
  exact hlater

/-- From every state of a store that began empty on, the number of tokens never falls, and every
token stays under its index as it was defined while its supply may only grow. A new token that is
granted gets as its index the number of tokens so far, and after the commit it stands there. -/
theorem token_definitions_only_added (sessions later : List Session) (ops : List Operation) :
    let s := sessions.foldl session {}
    let o := s.overlay ops
    s.view.GrowsTo (later.foldl session s).view ∧
      s.view.GrowsTo ((later.foldl session s).overlay ops).view ∧
      ∀ maxSupply unit description i,
        (o.perform (.newToken maxSupply unit description)).1 = .index i →
          i = o.view.tokenCount ∧
          ∀ rest, ∃ t, (s.session ⟨ops ++ .newToken maxSupply unit description :: rest,
              true⟩).view.token i = some t ∧
            Token.GrowsTo ⟨maxSupply, unit, description, 0⟩ t := by
  intro s o
  have hs : s.view.Conserved := foldl_session_conserved sessions empty_conserved
  have hlater : (later.foldl session s).view.Conserved := foldl_session_conserved later hs
  have hgrows := growsTo_foldl_session later hs
  refine ⟨hgrows, hgrows.trans (growsTo_overlay hlater ops), ?_⟩
  intro maxSupply unit description i hanswer
  obtain ⟨hindex, -⟩ := Overlay.perform_newToken hanswer
  exact ⟨hindex, token_session_newToken hs hanswer⟩

/-- An overlay issues more of an old token, is refused one token and defines another, and both
tokens are committed together. -/
theorem silver_defined_beside_gold :
    let holder : Address := ⟨List.replicate 26 1, rfl⟩
    let s := [⟨[.newToken 50 1 "gold", .deposit 0 holder 7], true⟩].foldl session {}
    let ops : List Operation := [.deposit 0 holder 3, .newToken 0 1 "void"]
    let second : Session := ⟨ops ++ .newToken 20 5 "silver" :: [.deposit 1 holder 20], true⟩
    ((s.overlay ops).perform (.newToken 20 5 "silver")).1 = .index 1 ∧
      (s.overlay ops).view.tokenCount = 1 ∧ s.view.GrowsTo ([second].foldl session s).view ∧
      ∃ t, (s.session second).view.token 1 = some t ∧ Token.GrowsTo ⟨20, 5, "silver", 0⟩ t := by
  intro holder s ops second
  have hanswer : ((s.overlay ops).perform (.newToken 20 5 "silver")).1 = .index 1 := by
    decide +kernel
  obtain ⟨hgrows, -, hnew⟩ := token_definitions_only_added
    [⟨[.newToken 50 1 "gold", .deposit 0 holder 7], true⟩] [second] ops
  obtain ⟨hindex, hcommitted⟩ := hnew 20 5 "silver" 1 hanswer
  exact ⟨hanswer, hindex.symm, hgrows, hcommitted [.deposit 1 holder 20]⟩

end Store

end ContractMachine
