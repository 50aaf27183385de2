import ContractMachine.Proofs.Commit

/-! Tokens are numbered without gaps. A store only replaces tokens or adds them at its end, so
committing an overlay puts each token under its index because the new indices follow on the old
ones and come in their order. -/

namespace ContractMachine

theorem toNat_ofNat_tokenIndex {n : Nat} (h : n < 4294967296) : (UInt32.ofNat n).toNat = n :=
  UInt32.toNat_ofNat_of_lt' h

theorem toNat_succ_tokenIndex {i : TokenIndex} (h : i.toNat + 1 < 4294967296) :
    (i + 1).toNat = i.toNat + 1 := by
  rw [UInt32.toNat_add]
  exact Nat.mod_eq_of_lt h

theorem compare_tokenIndex_eq_lt_iff {i j : TokenIndex} :
    SortKey.compare i j = .lt ↔ i.toNat < j.toNat := by
  rw [SortKey.compare, SortKey.compareLists]
  simp only [SortKey.key, List.compare_cons_cons, List.compare_nil_nil, Ordering.then_eq]
  rw [Int.compare_eq_lt]
  exact Int.ofNat_lt

attribute [ext] View

/-- The defined tokens are those whose index is below the number of tokens. -/
def View.Dense (v : View) : Prop :=
  ∀ i, (v.token i).isSome = true ↔ i < v.tokenCount

namespace Store

/-! ### Replacing a token or adding one -/

theorem length_putToken {tokens : List Token} {index : TokenIndex} (token : Token)
    (h : index.toNat ≤ tokens.length) :
    (putToken tokens index token).length = max tokens.length (index.toNat + 1) := by
  rw [putToken]
  split
  · rw [List.length_set]
    omega
  · rw [List.length_append, List.length_singleton]
    omega

theorem getElem?_putToken {tokens : List Token} {index : TokenIndex} (token : Token)
    (h : index.toNat ≤ tokens.length) (i : TokenIndex) :
    (putToken tokens index token)[i.toNat]? =
      if i = index then some token else tokens[i.toNat]? := by
  have hkey : i = index ↔ i.toNat = index.toNat := UInt32.toNat_inj.symm
  rw [putToken]
  split
  · rename_i hlt
    rw [List.getElem?_set]
    by_cases hi : i = index
    · subst hi
      simp [hlt]
    · rw [if_neg (fun he => hi (hkey.mpr he.symm)), if_neg hi]
  · have hend : index.toNat = tokens.length := by omega
    by_cases hi : i = index
    · subst hi
      simp [hend]
    · have hne : i.toNat ≠ tokens.length := fun he => hi (hkey.mpr (he.trans hend.symm))
      rw [if_neg hi]
      grind

/-- Tokens put in ascending order stand under their indices if together with the old ones they
leave none below `n` out. -/
theorem foldl_putToken {n : Nat} (hn : n ≤ 4294967296) (entries : List (TokenIndex × Token))
    (tokens : List Token)
    (hsorted : entries.Pairwise fun x y => SortKey.compare x.1 y.1 = .lt)
    (hle : tokens.length ≤ n) (hbelow : ∀ e ∈ entries, e.1.toNat < n)
    (hfill : ∀ i : TokenIndex, tokens.length ≤ i.toNat → i.toNat < n → ∃ t, (i, t) ∈ entries) :
    let result := entries.foldl (fun tokens (index, token) => putToken tokens index token) tokens
    result.length = n ∧
      ∀ i : TokenIndex, result[i.toNat]? = (OrderedMap.lookup i entries).or tokens[i.toNat]? := by
  induction entries generalizing tokens with
  | nil =>
      refine ⟨?_, fun i => rfl⟩
      by_contra hne
      have hlt : tokens.length < n := lt_of_le_of_ne hle hne
      have hindex := toNat_ofNat_tokenIndex (n := tokens.length) (by omega)
      obtain ⟨t, ht⟩ := hfill (UInt32.ofNat tokens.length) (by omega) (by omega)
      cases ht
  | cons head rest ih =>
      obtain ⟨k, t⟩ := head
      obtain ⟨hhead, hrest⟩ := List.pairwise_cons.mp hsorted
      have hkn : k.toNat < n := hbelow (k, t) List.mem_cons_self
      -- a gap before the least new index would have to be filled by a still smaller one
      have hk : k.toNat ≤ tokens.length := by
        by_contra hgap
        have hindex := toNat_ofNat_tokenIndex (n := tokens.length) (by omega)
        obtain ⟨u, hu⟩ := hfill (UInt32.ofNat tokens.length) (by omega) (by omega)
        rcases List.mem_cons.mp hu with heq | hmem
        · obtain ⟨rfl, rfl⟩ := Prod.mk.inj heq
          omega
        · have hlt : k.toNat < (UInt32.ofNat tokens.length).toNat :=
            compare_tokenIndex_eq_lt_iff.mp (hhead _ hmem)
          omega
      have hlength := length_putToken t hk
      obtain ⟨hlast, hget⟩ := ih (putToken tokens k t) hrest
        (by rw [hlength]; exact Nat.max_le.mpr ⟨hle, hkn⟩)
        (fun e he => hbelow e (List.mem_cons_of_mem _ he)) (by
          intro i hi hin
          rw [hlength] at hi
          obtain ⟨u, hu⟩ := hfill i (by omega) hin
          rcases List.mem_cons.mp hu with heq | hmem
          · obtain ⟨rfl, rfl⟩ := Prod.mk.inj heq
            omega
          · exact ⟨u, hmem⟩)
      refine ⟨hlast, fun i => (hget i).trans ?_⟩
      rw [getElem?_putToken t hk]
      by_cases hi : i = k
      · subst hi
        simp [OrderedMap.lookup_cons_self, OrderedMap.lookup_eq_none_of_lt hhead]
      · rw [if_neg hi, OrderedMap.lookup_cons_of_ne t rest hi]

/-! ### Committing -/

variable {s : Store}

theorem tokenCount_view (hs : s.tokens.length < 4294967296) :
    s.view.tokenCount.toNat = s.tokens.length :=
  toNat_ofNat_tokenIndex hs

/-- A store whose tokens all have an index numbers them without gaps. -/
theorem dense_view (hs : s.tokens.length < 4294967296) : s.view.Dense := by
  intro i
  rw [UInt32.lt_iff_toNat_lt, tokenCount_view hs]
  simp [view]

theorem tokens_apply {w : WriteSet}
    (hdense : (Overlay.mk s.view w).view.Dense) :
    (s.apply w).tokens.length = (Overlay.mk s.view w).view.tokenCount.toNat ∧
      ∀ i : TokenIndex, (s.apply w).tokens[i.toNat]? = (Overlay.mk s.view w).view.token i := by
  have hcount : ∀ i : TokenIndex, ((w.tokens.get? i).or s.tokens[i.toNat]?).isSome = true ↔
      i.toNat < (Overlay.mk s.view w).view.tokenCount.toNat := hdense
  generalize (Overlay.mk s.view w).view.tokenCount = count at hcount ⊢
  apply foldl_putToken (Nat.le_of_lt count.toNat_lt) w.tokens.toList s.tokens w.tokens.sorted
  · by_contra hlt
    have hold : s.tokens[count.toNat]?.isSome = true := by simpa using hlt
    have hself := (hcount count).mp (by simp [hold])
    omega
  · rintro ⟨i, t⟩ hmem
    have hget : w.tokens.get? i = some t := OrderedMap.get?_eq_some_iff.mpr hmem
    exact (hcount i).mp (by simp [hget])
  · intro i hnew hi
    have hsome := (hcount i).mpr hi
    rw [List.getElem?_eq_none hnew, Option.or_none] at hsome
    obtain ⟨t, ht⟩ := Option.isSome_iff_exists.mp hsome
    exact ⟨t, OrderedMap.get?_eq_some_iff.mp ht⟩

/-- An overlay that numbers tokens without gaps above a store is committed as it is read. -/
theorem view_apply {w : WriteSet} (hdense : (Overlay.mk s.view w).view.Dense) :
    (s.apply w).view = (Overlay.mk s.view w).view := by
  obtain ⟨hlength, htokens⟩ := tokens_apply hdense
  ext1
  case var =>
    funext i
    exact OrderedMap.get?_merge s.vars w.vars i
  case entry =>
    funext i k
    exact OrderedMap.get?_merge s.entries w.entries ⟨i, k⟩
  case token =>
    funext i
    exact htokens i
  case tokenCount => rw [view, hlength, UInt32.ofNat_toNat]
  case balance =>
    funext i a
    have hmerge := OrderedMap.get?_merge s.balances w.balances ⟨i, a⟩
    simp only [view, apply, hmerge, Overlay.view]
    cases w.balances.get? ⟨i, a⟩ <;> rfl

/-- Updates that leave the tokens numbered without gaps are committed as they are made. -/
theorem view_commit {us : List Update} (hdense : (us.foldl View.update s.view).Dense) :
    (s.commit us).view = us.foldl View.update s.view := by
  have hview := Overlay.view_record { base := s.view } us
  rw [Overlay.view_mk_empty] at hview
  rw [← hview] at hdense ⊢
  exact view_apply hdense

end Store

end ContractMachine
