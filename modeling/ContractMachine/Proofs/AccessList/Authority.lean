import ContractMachine.Proofs.AccessList.Runs

/-! Who governs an access list. Only the maker replaces the issuer, only the issuer sets flags and
issues tokens, and only its holder sends a token on, if the policy lets both parties take part. -/

namespace ContractMachine.AccessList

/-! ### What can be read of a state -/

/-- The policy lets the account take part: for a whitelist its flag is on, for a blacklist it is
off or was never set. -/
def Policy.Passes (policy : Policy) (v : View) (account : Address) : Prop :=
  match policy with
  | whitelist => v.entry listedMap (.address account) = some (.boolean true)
  | blacklist => v.entry listedMap (.address account) = none ∨
      v.entry listedMap (.address account) = some (.boolean false)

/-- The account has the unit of the token, and nobody else has any of it. -/
def Holds (v : View) (i : TokenIndex) (holder : Address) : Prop :=
  ∀ account, v.balance i account = if account = holder then 1 else 0

/-- The call that leads from the first state to the second keeps to what each party may do. -/
structure Governs (policy : Policy) (maker : Address) (c : Call) (v w : View) : Prop where
  maker_kept : w.var makerVar = some (.address maker)
  issuer : w.var issuerVar = v.var issuerVar ∨
    ∃ context account, c = .invoke supersedeId context [.address account] ∧
      context.signer = some maker ∧ w.var issuerVar = some (.address account)
  listed : ∀ key, w.entry listedMap key = v.entry listedMap key ∨
    ∃ context issuer account flag,
      c = .invoke updateListId context [.address account, .boolean flag] ∧
      v.var issuerVar = some (.address issuer) ∧ context.caller = some issuer ∧
      key = .address account ∧ w.entry listedMap key = some (.boolean flag)
  issued : ∀ i, v.tokenCount ≤ i → i < w.tokenCount →
    i = v.tokenCount ∧ ∃ context issuer description,
      c = .invoke issueId context [.shortText description] ∧
      v.var issuerVar = some (.address issuer) ∧ context.caller = some issuer ∧ Holds w i issuer
  holder : ∀ i < v.tokenCount, i < w.tokenCount ∧ ∃ old new, Holds v i old ∧ Holds w i new ∧
    (new = old ∨ ∃ context index, c = .invoke sendId context [.address new, .int32 index] ∧
      index.toInt = i.toNat ∧ context.caller = some old ∧
      policy.Passes v old ∧ policy.Passes v new)

namespace Registry

variable {policy : Policy} {r : Registry} {v : View} {c : Call} {change : Change}

theorem Shows.passes_iff (h : r.Shows v) {account : Address} :
    policy.Passes v account ↔ policy.permits (r.listed account) = true := by
  have hflag := h.listed account
  cases hentry : v.entry listedMap (.address account) with
  | none =>
      rw [hentry, Option.getD_none] at hflag
      have hlisted : r.listed account = false := (Value.boolean.inj hflag).symm
      cases policy <;> simp [Policy.Passes, Policy.permits, hentry, hlisted]
  | some flag =>
      rw [hentry, Option.getD_some] at hflag
      cases policy <;> simp [Policy.Passes, Policy.permits, hentry, hflag]

theorem Shows.holds_iff (h : r.Shows v) {i : TokenIndex} {account : Address} :
    Holds v i account ↔ r.holder? i = some account := by
  constructor
  · intro hholds
    have hone := hholds account
    rw [h.balance, Registry.balance, if_pos rfl] at hone
    by_contra hother
    rw [if_neg hother] at hone
    exact absurd hone (by decide)
  · intro hholder a
    rw [h.balance, Registry.balance, hholder]
    simp [eq_comm]

theorem Shows.exists_holds (h : r.Shows v) {i : TokenIndex} (hi : i < v.tokenCount) :
    ∃ holder, Holds v i holder := by
  rw [UInt32.lt_iff_toNat_lt, h.tokenCount] at hi
  have hdeed := List.getElem?_eq_getElem hi
  exact ⟨_, h.holds_iff.mpr (congrArg (Option.map Deed.holder) hdeed)⟩

theorem Shows.lt_tokenCount (h : r.Shows v) {i : TokenIndex} {account : Address}
    (hholder : r.holder? i = some account) : i < v.tokenCount := by
  rw [UInt32.lt_iff_toNat_lt, h.tokenCount]
  exact lt_length_of_holder? hholder

/-! ### What one call may do -/

theorem Shows.governs_supersede (h : r.Shows v) {context : Context} (account : Address)
    (hsigner : context.signer = some r.maker) :
    Governs policy r.maker (.invoke supersedeId context [.address account]) v
      ((r.updates (.issuer account)).foldl View.update v) where
  maker_kept := h.maker
  issuer := .inr ⟨context, account, rfl, hsigner, rfl⟩
  listed _ := .inl rfl
  issued _ hnew hi := absurd hi (UInt32.not_lt.mpr hnew)
  holder i hi := by
    obtain ⟨holder, hholds⟩ := h.exists_holds hi
    exact ⟨hi, holder, holder, hholds, hholds, .inl rfl⟩

theorem Shows.governs_updateList (h : r.Shows v) {context : Context} (account : Address)
    (flag : Bool) (hcaller : context.caller = some r.issuer) :
    Governs policy r.maker (.invoke updateListId context [.address account, .boolean flag]) v
      ((r.updates (.flag account flag)).foldl View.update v) where
  maker_kept := h.maker
  issuer := .inl rfl
  listed key := by
    by_cases hkey : key = .address account
    · refine .inr ⟨context, r.issuer, account, flag, rfl, h.issuer, hcaller, hkey, ?_⟩
      simp [updates, View.update, hkey]
    · left
      simp [updates, View.update, hkey]
  issued _ hnew hi := absurd hi (UInt32.not_lt.mpr hnew)
  holder i hi := by
    obtain ⟨holder, hholds⟩ := h.exists_holds hi
    exact ⟨hi, holder, holder, hholds, hholds, .inl rfl⟩

/-- The new token is the only one, and the others stay where they are. -/
theorem Shows.governs_issue (h : r.Shows v) {context : Context} (description : String)
    (hcaller : context.caller = some r.issuer) (hroom : r.deeds.length + 1 < 4294967296) :
    Governs policy r.maker (.invoke issueId context [.shortText description]) v
      ((r.updates (.issue description)).foldl View.update v) where
  maker_kept := h.maker
  issuer := .inl rfl
  listed _ := .inl rfl
  issued i hnew hi := by
    have hw := h.issue description hroom
    have hnext : i = r.nextToken := by
      rw [UInt32.le_iff_toNat_le, h.tokenCount] at hnew
      rw [UInt32.lt_iff_toNat_lt, hw.tokenCount, Registry.changed, List.length_append,
        List.length_singleton] at hi
      rw [← UInt32.toNat_inj, toNat_nextToken h]
      omega
    refine ⟨hnext.trans h.nextToken.symm, context, r.issuer, description, rfl, h.issuer, hcaller,
      hw.holds_iff.mpr ?_⟩
    rw [holder?_issue h, if_pos hnext]
  holder i hi := by
    have hw := h.issue description hroom
    obtain ⟨holder, hholds⟩ := h.exists_holds hi
    have hold : i ≠ r.nextToken := by
      rintro rfl
      rw [h.nextToken] at hi
      exact absurd hi (UInt32.lt_irrefl _)
    have hsame : (r.changed (.issue description)).holder? i = some holder := by
      rw [holder?_issue h, if_neg hold, h.holds_iff.mp hholds]
    exact ⟨hw.lt_tokenCount hsame, holder, holder, hholds, hw.holds_iff.mpr hsame, .inl rfl⟩

/-- The token goes from its holder to the recipient, and the others stay where they are. -/
theorem Shows.governs_send (h : r.Shows v) {context : Context} {sender recipient : Address}
    {index : Int32} {token : TokenIndex} (hcaller : context.caller = some sender)
    (hsender : policy.permits (r.listed sender) = true)
    (hrecipient : policy.permits (r.listed recipient) = true) (hindex : index.toInt = token.toNat)
    (hheld : r.holder? token = some sender) :
    Governs policy r.maker (.invoke sendId context [.address recipient, .int32 index]) v
      ((r.updates (.pass token sender recipient)).foldl View.update v) where
  maker_kept := h.maker
  issuer := .inl rfl
  listed _ := .inl rfl
  issued _ hnew hi := absurd hi (UInt32.not_lt.mpr hnew)
  holder i hi := by
    have hw := h.pass hheld recipient
    by_cases hsent : i = token
    · subst hsent
      refine ⟨hi, sender, recipient, h.holds_iff.mpr hheld, hw.holds_iff.mpr ?_, .inr ?_⟩
      · rw [holder?_pass, if_pos rfl, hheld, Option.map_some]
      · exact ⟨context, index, rfl, hindex, hcaller, h.passes_iff.mpr hsender,
          h.passes_iff.mpr hrecipient⟩
    · obtain ⟨holder, hholds⟩ := h.exists_holds hi
      refine ⟨hi, holder, holder, hholds, hw.holds_iff.mpr ?_, .inl rfl⟩
      rw [holder?_pass, if_neg hsent, h.holds_iff.mp hholds]

theorem Shows.governs (h : r.Shows v) (hpermits : r.Permits policy c change) :
    Governs policy r.maker c v ((r.updates change).foldl View.update v) := by
  cases hpermits with
  | supersede signer => exact h.governs_supersede _ signer
  | issue caller fits room => exact h.governs_issue _ caller (by omega)
  | updateList caller => exact h.governs_updateList _ _ caller
  | send caller senderMay recipientMay token held =>
      exact h.governs_send caller senderMay recipientMay token held

theorem maker_changed (r : Registry) (change : Change) : (r.changed change).maker = r.maker := by
  cases change <;> rfl

end Registry

/-! ### Sending -/

section Send

variable {policy : Policy} {r : Registry} {s : Store} {context : Context} {sender : Address}

theorem send_succeeds_iff (hr : r.Shows s.view) (hcaller : context.caller = some sender)
    (recipient : Address) (index : Int32) :
    (∃ next, (Deployment.mk (valid policy) s).perform
        (.invoke sendId context [.address recipient, .int32 index]) = .ok next) ↔
      policy.Passes s.view sender ∧ policy.Passes s.view recipient ∧
        ∃ i < s.view.tokenCount, index.toInt = i.toNat ∧ Holds s.view i sender := by
  constructor
  · rintro ⟨next, hperform⟩
    obtain ⟨change, hpermits, -⟩ := (perform_eq_ok_iff hr).mp hperform
    generalize hcall : Call.invoke sendId context [.address recipient, .int32 index] = call
      at hpermits
    cases hpermits with
    | send caller senderMay recipientMay token held =>
        obtain ⟨-, rfl, hargs⟩ := Call.invoke.inj hcall
        obtain ⟨rfl, rfl⟩ : recipient = _ ∧ index = _ := by simpa using hargs
        obtain rfl := Option.some.inj (hcaller.symm.trans caller)
        exact ⟨hr.passes_iff.mpr senderMay, hr.passes_iff.mpr recipientMay, _,
          hr.lt_tokenCount held, token, hr.holds_iff.mpr held⟩
    | _ => simp [supersedeId, issueId, updateListId, sendId] at hcall
  · rintro ⟨hsender, hrecipient, i, -, htoken, hheld⟩
    exact ⟨_, (perform_eq_ok_iff hr).mpr ⟨_, .send hcaller (hr.passes_iff.mp hsender)
      (hr.passes_iff.mp hrecipient) htoken (hr.holds_iff.mp hheld), rfl⟩⟩

theorem send_not_permitted (hr : r.Shows s.view) (hcaller : context.caller = some sender)
    {recipient : Address} (index : Int32)
    (h : ¬policy.Passes s.view sender ∨ ¬policy.Passes s.view recipient) :
    ∃ position, (Deployment.mk (valid policy) s).perform
        (.invoke sendId context [.address recipient, .int32 index]) =
      .error (.trap position .notPermitted) := by
  rw [hr.passes_iff, hr.passes_iff, Bool.not_eq_true, Bool.not_eq_true] at h
  obtain ⟨position, htrap⟩ := exists_trap_of_send (o := { base := s.view }) hr hcaller index h
  have hfunction : (valid policy).function? sendId = some (send policy) := by
    cases policy <;> rfl
  refine ⟨position, ?_⟩
  simp only [Deployment.perform, Deployment.invoke, hfunction]
  have hmem : send policy ∈ functions policy := by simp [functions]
  have hparams := params_le (send policy) hmem
  refine Deployment.call_eq_error hparams (hparams.trans (by decide)) ⟨rfl, ?_⟩ htrap
  simp [Value.encodable, Value.payloadLength?]

end Send

/-- In every state that is reached, for both policies: the maker is who signed for the deployment,
and a call that goes through changes the issuer only for the maker, flags and tokens only for the
issuer, and a holder only where the holder sends the token on and both parties pass. A caller sends
a token exactly if both parties pass and the caller holds it; if one of them does not pass, that is
what the call is refused for, whatever the token. -/
theorem parties_keep_their_authority {policy : Policy} {context : Context} {args : List Value}
    {d : Deployment Store}
    (h : Deployment.deploy (valid policy) ({} : Store) context args = .ok d) (calls : List Call) :
    let s := d.after calls
    ∃ maker, context.signer = some maker ∧ s.store.view.var makerVar = some (.address maker) ∧
      (∀ c next, s.perform c = .ok next →
        Governs policy maker c s.store.view next.store.view) ∧
      ∀ (context : Context) (sender recipient : Address) (index : Int32),
        context.caller = some sender →
        ((∃ next, s.perform (.invoke sendId context [.address recipient, .int32 index]) =
            .ok next) ↔
          policy.Passes s.store.view sender ∧ policy.Passes s.store.view recipient ∧
            ∃ i < s.store.view.tokenCount, index.toInt = i.toNat ∧
              Holds s.store.view i sender) ∧
        (¬policy.Passes s.store.view sender ∨ ¬policy.Passes s.store.view recipient →
          ∃ position, s.perform (.invoke sendId context [.address recipient, .int32 index]) =
            .error (.trap position .notPermitted)) := by
  obtain ⟨maker, hsigner, hcontract, hstart⟩ := records_of_deploy h
  obtain ⟨contract, start⟩ := d
  obtain rfl : contract = valid policy := hcontract
  obtain ⟨r, s, hafter, hr, hmaker⟩ := records_run (I := fun r _ => r.maker = maker) hstart rfl
    (fun r past s c change hmaker (_ : r.Permits policy c change) =>
      (r.maker_changed change).trans hmaker) calls
  simp only [hafter]
  refine ⟨maker, hsigner, hmaker ▸ hr.maker, fun c next hperform => ?_,
    fun context sender recipient index hcaller =>
      ⟨send_succeeds_iff hr.toShows hcaller recipient index,
        send_not_permitted hr.toShows hcaller index⟩⟩
  obtain ⟨change, hpermits, rfl⟩ := (perform_eq_ok_iff hr.toShows).mp hperform
  have hgoverns := hr.toShows.governs hpermits
  rwa [hmaker, ← Store.view_commit (hr.toShows.changed hpermits).dense] at hgoverns

namespace Sample

def stranger : Address := ⟨List.replicate 26 9, rfl⟩

/-- The friend sends a token on. -/
def sending (recipient : Address) (index : Int32) : Call :=
  .invoke sendId (.signedBy friend) [.address recipient, .int32 index]

theorem exists_sent_back : ∃ d next, deployed = .ok d ∧
    (d.after passing).perform (sending maker 0) = .ok next ∧
    (d.after passing).store.view.entry listedMap (.address stranger) = none := by
  have hcheck : (match deployed with
      | .ok d => ((d.after passing).perform (sending maker 0)).isOk &&
          decide ((d.after passing).store.view.entry listedMap (.address stranger) = none)
      | .error _ => false) = true := by decide +kernel
  cases hd : deployed with
  | error e => simp [hd] at hcheck
  | ok d =>
      cases hnext : (d.after passing).perform (sending maker 0) with
      | error e => simp [hd, hnext, Except.isOk, Except.toBool] at hcheck
      | ok next =>
          simp only [hd, hnext, Bool.and_eq_true, decide_eq_true_eq] at hcheck
          exact ⟨d, next, rfl, hnext, hcheck.2⟩

end Sample

open Sample in
/-- The theorem where a token is sent back to the maker, which keeps to the rules, and where it is
not sent to an account that was never listed, and neither is a token that does not exist. -/
theorem token_sent_back_and_refused :
    ∃ d next, deployed = .ok d ∧ (d.after passing).perform (sending maker 0) = .ok next ∧
      Governs .whitelist maker (sending maker 0) (d.after passing).store.view next.store.view ∧
      Holds (d.after passing).store.view 0 friend ∧
      ¬Policy.whitelist.Passes (d.after passing).store.view stranger ∧
      ∀ index, ∃ position, (d.after passing).perform (sending stranger index) =
        .error (.trap position .notPermitted) := by
  obtain ⟨d, next, hd, hnext, hunlisted⟩ := exists_sent_back
  obtain ⟨signer, hsigner, -, hgoverns, hsend⟩ := parties_keep_their_authority hd passing
  obtain rfl : maker = signer := Option.some.inj hsigner
  obtain ⟨-, -, i, -, hindex, hholds⟩ := (hsend _ _ _ _ rfl).1.mp ⟨next, hnext⟩
  have hzero : i = 0 := UInt32.toNat_inj.mp (Int.ofNat.inj hindex.symm)
  have hrefused : ¬Policy.whitelist.Passes (d.after passing).store.view stranger := by
    simp [Policy.Passes, hunlisted]
  exact ⟨d, next, hd, hnext, hgoverns _ _ hnext, hzero ▸ hholds, hrefused,
    fun index => (hsend _ _ _ _ rfl).2 (.inr hrefused)⟩

end ContractMachine.AccessList
