import ContractMachine.Proofs.AccessList.Bodies

/-! What one call can do to an access list. A call succeeds if and only if the rules let it
through, and then the store is that of the changed registry; so what the rules keep holds after
every run. -/

namespace ContractMachine.AccessList

variable {policy : Policy} {r : Registry} {s : Store}

/-! ### Which body a call runs -/

def functions (policy : Policy) : List Function :=
  [supersede, issue, updateList, send policy]

theorem functions_valid (policy : Policy) :
    (valid policy).contract.functions = functions policy := rfl

theorem triggers_valid (policy : Policy) : (valid policy).contract.triggers = [init] := rfl

theorem initTrigger_valid (policy : Policy) : (valid policy).initTrigger = init := rfl

theorem params_le : ∀ f ∈ functions policy, f.params.length ≤ 64 := by
  cases policy <;> decide

theorem call_eq_ok_iff {f : Function} (hparams : f.params.length ≤ 64) {context : Context}
    {args : List Value} {next : Deployment Store} :
    (Deployment.mk (valid policy) s).call f context args = .ok next ↔
      f.Accepts args ∧
        Machine.Completes ⟨contract policy, context⟩ f.code
          ⟨.ofValues 64 args, { base := s.view }⟩
          fun m => (Deployment.mk (valid policy) s).LeadsTo next m.overlay :=
  Deployment.call_eq_ok_iff hparams (by omega)

theorem invoke_eq_ok_iff {id : FunctionId} {context : Context} {args : List Value}
    {next : Deployment Store} :
    (Deployment.mk (valid policy) s).invoke id context args = .ok next ↔
      ∃ f ∈ functions policy, f.id = id ∧
        (Deployment.mk (valid policy) s).call f context args = .ok next :=
  Deployment.invoke_eq_ok_iff (functions_valid policy ▸ by cases policy <;> decide)

/-- No token that others issue is taken or given out. -/
theorem runTokenTrigger_ne_ok {watched : FunctionKind → Option SlotIndex}
    (hinit : watched .onInit = none) {token : TokenId} {account : Address} {amount : Int64}
    {context : Context} {next : Deployment Store} :
    (Deployment.mk (valid policy) s).runTokenTrigger watched token account amount context ≠
      .ok next := by
  have hkind : init.kind = .onInit := rfl
  have hnone : (Deployment.mk (valid policy) s).tokenTrigger? watched token = none := by
    simp [Deployment.tokenTrigger?, triggers_valid, hkind, hinit]
  simp [Deployment.runTokenTrigger, hnone]

/-! ### Calls and rules -/

/-- The deployment after a change. -/
def amended (policy : Policy) (s : Store) (us : List Update) : Deployment Store :=
  ⟨valid policy, s.commit us⟩

attribute [local simp] List.map_eq_cons_iff type_eq_address_iff type_eq_int32_iff
  type_eq_boolean_iff type_eq_shortText_iff

theorem permits_of_invoke (hr : r.Shows s.view) {f : Function} (hf : f ∈ functions policy)
    {context : Context} {args : List Value} {next : Deployment Store}
    (h : (Deployment.mk (valid policy) s).call f context args = .ok next) :
    ∃ change, r.Permits policy (.invoke f.id context args) change ∧
      next = amended policy s (r.updates change) := by
  obtain ⟨⟨htypes, hencodable⟩, hrun⟩ := (call_eq_ok_iff (params_le f hf)).mp h
  simp only [functions, List.mem_cons, List.not_mem_nil, or_false] at hf
  rcases hf with rfl | rfl | rfl | rfl
  · change args.map Value.type = [.address] at htypes
    obtain ⟨account, rfl⟩ : ∃ a, args = [.address a] := by simpa using htypes
    obtain ⟨signer, hnext⟩ := (completes_supersede hr account).mp hrun
    exact ⟨_, .supersede signer, hnext.symm⟩
  · change args.map Value.type = [.shortText] at htypes
    obtain ⟨description, rfl⟩ : ∃ text, args = [.shortText text] := by simpa using htypes
    obtain ⟨caller, room, hnext⟩ := (completes_issue hr description).mp hrun
    exact ⟨_, .issue caller (hencodable _ List.mem_cons_self) room, hnext.symm⟩
  · change args.map Value.type = [.address, .boolean] at htypes
    obtain ⟨account, listed, rfl⟩ : ∃ a b, args = [.address a, .boolean b] := by
      simpa [-Bool.exists_bool] using htypes
    obtain ⟨caller, hnext⟩ := (completes_updateList hr account listed).mp hrun
    exact ⟨_, .updateList caller, hnext.symm⟩
  · change args.map Value.type = [.address, .int32] at htypes
    obtain ⟨recipient, index, rfl⟩ : ∃ a n, args = [.address a, .int32 n] := by
      simpa using htypes
    obtain ⟨sender, caller, senderMay, recipientMay, i, token, held, hnext⟩ :=
      (completes_send hr recipient index).mp hrun
    exact ⟨_, .send caller senderMay recipientMay token held, hnext.symm⟩

theorem perform_of_permits (hr : r.Shows s.view) {c : Call} {change : Change}
    (h : r.Permits policy c change) :
    (Deployment.mk (valid policy) s).perform c = .ok (amended policy s (r.updates change)) := by
  have hinvoke : ∀ f ∈ functions policy, ∀ context args, f.Accepts args →
      Machine.Completes ⟨contract policy, context⟩ f.code ⟨.ofValues 64 args, { base := s.view }⟩
        (fun m => (Deployment.mk (valid policy) s).LeadsTo (amended policy s (r.updates change))
          m.overlay) →
      (Deployment.mk (valid policy) s).perform (.invoke f.id context args) =
        .ok (amended policy s (r.updates change)) := by
    intro f hf context args haccepts hrun
    exact invoke_eq_ok_iff.mpr ⟨f, hf, rfl, (call_eq_ok_iff (params_le f hf)).mpr ⟨haccepts, hrun⟩⟩
  cases h with
  | supersede signer =>
      refine hinvoke supersede (by simp [functions]) _ _ ⟨rfl, ?_⟩
        ((completes_supersede hr _).mpr ⟨signer, rfl⟩)
      simp [Value.encodable, Value.payloadLength?]
  | issue caller fits room =>
      refine hinvoke issue (by simp [functions]) _ _ ⟨rfl, ?_⟩
        ((completes_issue hr _).mpr ⟨caller, room, rfl⟩)
      simpa using fits
  | updateList caller =>
      refine hinvoke updateList (by simp [functions]) _ _ ⟨rfl, ?_⟩
        ((completes_updateList hr _ _).mpr ⟨caller, rfl⟩)
      simp [Value.encodable, Value.payloadLength?]
  | send caller senderMay recipientMay token held =>
      refine hinvoke (send policy) (by simp [functions]) _ _ ⟨rfl, ?_⟩
        ((completes_send hr _ _).mpr
          ⟨_, caller, senderMay, recipientMay, _, token, held, rfl⟩)
      simp [Value.encodable, Value.payloadLength?]

/-- A call goes through exactly if the rules permit it, and it changes what the rules say. -/
theorem perform_eq_ok_iff (hr : r.Shows s.view) {c : Call} {next : Deployment Store} :
    (Deployment.mk (valid policy) s).perform c = .ok next ↔
      ∃ change, r.Permits policy c change ∧ next = amended policy s (r.updates change) := by
  constructor
  · intro h
    cases c with
    | invoke id context args =>
        obtain ⟨f, hf, rfl, hcall⟩ := invoke_eq_ok_iff.mp h
        exact permits_of_invoke hr hf hcall
    | deposit token account amount context =>
        rw [Deployment.perform, Deployment.deposit] at h
        exact absurd h (runTokenTrigger_ne_ok rfl)
    | withdraw token account amount context =>
        rw [Deployment.perform, Deployment.withdraw] at h
        exact absurd h (runTokenTrigger_ne_ok rfl)
  · rintro ⟨change, hpermits, rfl⟩
    exact perform_of_permits hr hpermits

/-! ### Deployment and runs -/

/-- The registry of a contract that was just deployed. -/
def Registry.initial (maker : Address) : Registry where
  maker
  issuer := maker
  listed _ := false
  deeds := []

theorem Registry.records_initial (maker : Address) :
    (initial maker).Records
      (({} : Store).commit [.var issuerVar (.address maker), .var makerVar (.address maker)]) where
  issuer := rfl
  maker := rfl
  listed _ := rfl
  tokenCount := rfl
  token _ := rfl
  balance _ _ := rfl
  issued _ _ _ := rfl

theorem records_of_deploy {context : Context} {args : List Value} {d : Deployment Store}
    (h : Deployment.deploy (valid policy) ({} : Store) context args = .ok d) :
    ∃ maker, context.signer = some maker ∧ d.contract = valid policy ∧
      (Registry.initial maker).Records d.store := by
  rw [Deployment.deploy, initTrigger_valid] at h
  obtain ⟨⟨htypes, -⟩, hrun⟩ := (call_eq_ok_iff (by decide)).mp h
  obtain rfl : args = [] := List.map_eq_nil_iff.mp htypes
  obtain ⟨maker, hsigner, rfl⟩ := completes_init.mp hrun
  exact ⟨maker, hsigner, rfl, Registry.records_initial maker⟩

/-- A property of the registry and of the successful calls so far that every permitted call keeps
holds of some registry of every state that is reached. -/
theorem records_run {I : Registry → List (Deployment Store × Call) → Prop} (hr : r.Records s)
    (hstart : I r [])
    (hstep : ∀ r past s c change, I r past → r.Permits policy c change →
      I (r.changed change) (past ++ [(⟨valid policy, s⟩, c)]))
    (calls : List Call) :
    ∃ r t, (Deployment.mk (valid policy) s).after calls = ⟨valid policy, t⟩ ∧ r.Records t ∧
      I r ((Deployment.mk (valid policy) s).history calls) := by
  refine Deployment.run_induction
    (I := fun d past => ∃ r s, d = ⟨valid policy, s⟩ ∧ r.Records s ∧ I r past) ?_ ?_ calls
  · exact ⟨r, s, rfl, hr, hstart⟩
  · rintro _ past c next ⟨r, s, rfl, hr, hI⟩ hperform
    obtain ⟨change, hpermits, rfl⟩ := (perform_eq_ok_iff hr.toShows).mp hperform
    exact ⟨_, _, rfl, hr.commit hpermits, hstep r past s c change hI hpermits⟩

theorem records_after {I : Registry → List (Deployment Store × Call) → Prop}
    (hstart : ∀ maker, I (.initial maker) [])
    (hstep : ∀ r past s c change, I r past → r.Permits policy c change →
      I (r.changed change) (past ++ [(⟨valid policy, s⟩, c)]))
    {context : Context} {args : List Value} {d : Deployment Store}
    (h : Deployment.deploy (valid policy) ({} : Store) context args = .ok d) (calls : List Call) :
    ∃ r s, d.after calls = ⟨valid policy, s⟩ ∧ r.Records s ∧ I r (d.history calls) := by
  obtain ⟨maker, -, hcontract, hr⟩ := records_of_deploy h
  obtain ⟨contract, s⟩ := d
  obtain rfl : contract = valid policy := hcontract
  exact records_run hr (hstart maker) hstep calls

/-! ### A small registry -/

namespace Sample

def maker : Address := ⟨List.replicate 26 7, rfl⟩

def friend : Address := ⟨List.replicate 26 8, rfl⟩

def deployed : Except ExecError (Deployment Store) :=
  Deployment.deploy (valid .whitelist) {} (.signedBy maker) []

/-- The maker issues a token, lists both accounts and sends the token, which works only once. -/
def passing : List Call :=
  [.invoke issueId (.signedBy maker) [.shortText "deed"],
    .invoke updateListId (.signedBy maker) [.address maker, .boolean true],
    .invoke updateListId (.signedBy maker) [.address friend, .boolean true],
    .invoke sendId (.signedBy maker) [.address friend, .int32 0],
    .invoke sendId (.signedBy maker) [.address friend, .int32 0]]

theorem exists_deployed : ∃ d, deployed = .ok d ∧ (d.after passing).store.view.tokenCount = 1 ∧
    (d.after passing).store.view.balance 0 friend = 1 := by
  have hcheck : (match deployed with
      | .ok d => decide ((d.after passing).store.view.tokenCount = 1 ∧
          (d.after passing).store.view.balance 0 friend = 1)
      | .error _ => false) = true := by decide +kernel
  cases hd : deployed with
  | error e => simp [hd] at hcheck
  | ok d =>
      simp only [hd, decide_eq_true_eq] at hcheck
      exact ⟨d, rfl, hcheck⟩

end Sample

end ContractMachine.AccessList
