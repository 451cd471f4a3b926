/- PrivateBtc/Backend/ProofTokens
   digest: A registered nullifier traces back to a proof that the verifier accepted in the run. -/

import PrivateBtc.Backend.VaultWrites

set_option autoImplicit false
set_option relaxedAutoImplicit false

namespace PrivateBtc.Backend.ProofTokens

open Library Library.JsText Library.Outcome
open Authorizations Database Http ProofVerifier Server Starknet VaultWrites Withdrawals
open Contracts.Vault (Genesis)

variable (env : Environment) (genesis : Genesis)

/-- verify-withdraw was asked, and its vault stood these checks in the state of that moment. -/
def Asked (labels : List Label) (id : Nat) (request : Request) (vault : VaultRow)
    (checks : Checks) : Prop :=
  ∃ first proof moment rest before, request = .verifyWithdraw proof ∧
    labels = first ++ .request id request moment :: rest ∧
    GuardedRun.run (step env) (boot genesis) first = some before ∧
    vaultById before.db proof.vaultId = some vault ∧
    checks = checkVault env.crypto before.db moment.nowSecs proof vault

/-- The verifier has accepted a proof, with all its checks passed, and signed this token for it. -/
def Proven (labels : List Label) (token : ProofToken) : Prop :=
  ∃ earlier id request vault checks moment rest before,
    labels = earlier ++ .reply id (.rpc (.commitmentRegistered true)) moment :: rest ∧
    GuardedRun.run (step env) (boot genesis) earlier = some before ∧
    before.tasks id = some (request, .execute (.checking vault checks)) ∧
    Asked env genesis earlier id request vault checks ∧
    (∀ entry ∈ ({ checks with onChainConfirmed := true } : Checks).entries, entry.2 = true) ∧
    token = ⟨vault.id, vault.commitment, vault.nullifierHash, vault.ownerAddress,
      moment.nowSecs + 600⟩

/-- The handler was asked with a token of the verifier, before the token expired. -/
def Presented (labels : List Label) (id : Nat) (request : Request) (txHash : Text)
    (withdrawal : ExecutingWithdrawal) : Prop :=
  ∃ earlier body moment rest token, request = .executeWithdraw body ∧
    labels = earlier ++ .request id request moment :: rest ∧ body.txHash.getD [] = txHash ∧
    Proven env genesis earlier token ∧ moment.nowSecs < token.expiresAt ∧
    token.vaultId = withdrawal.vaultId ∧ token.nullifierHash = withdrawal.nullifierHash

/-- The handler was shown the receipt that it asked for in this task. -/
def Shown (labels : List Label) (id : Nat) (request : Request) (task : ExecuteTask)
    (receipt : TransactionReceipt) : Prop :=
  ∃ first moment rest before,
    labels = first ++ .reply id (.rpc (.receipt (.ok receipt))) moment :: rest ∧
    GuardedRun.run (step env) (boot genesis) first = some before ∧
    before.tasks id = some (request, .execute task)

/-- The handler has seen the transaction that it was asked about succeed. -/
structure Confirmed (labels : List Label) (id : Nat) (request : Request) (txHash : Text)
    (withdrawal : ExecutingWithdrawal) : Prop where
  presented : Presented env genesis labels id request txHash withdrawal
  succeeded : ∃ attempt receipt,
    Shown env genesis labels id request (.waiting txHash attempt withdrawal) receipt ∧
    receipt.succeeded = true

/-- What a row of the nullifier registry rests on: one handler, and the receipts of the one
transaction it was asked about. -/
structure Earned (labels : List Label) (observed : List Text) (used : NullifierRow) : Prop where
  executed : ∃ id request withdrawal blockNumber receipt,
    Confirmed env genesis labels id request used.withdrawTxHash withdrawal ∧
    withdrawal.vaultId = used.vaultId ∧ withdrawal.nullifierHash = some used.nullifierHash ∧
    Shown env genesis labels id request (.event used.withdrawTxHash withdrawal blockNumber)
      receipt ∧
    verifyWithdrawalEvent env.vaultContractAddress receipt used.nullifierHash = true
  confirmed : canonicalHash used.withdrawTxHash ∈ observed

/-- What every run keeps of the proof tokens and of those who present them. -/
structure Traced (labels : List Label) (s : State) : Prop where
  ran : GuardedRun.run (step env) (boot genesis) labels = some s
  asked : ∀ id request vault checks,
    s.tasks id = some (request, .execute (.checking vault checks)) →
    Asked env genesis labels id request vault checks
  issued : ∀ token ∈ s.issued, Proven env genesis labels token
  waiting : ∀ id request txHash attempt withdrawal,
    s.tasks id = some (request, .execute (.waiting txHash attempt withdrawal)) →
    Presented env genesis labels id request txHash withdrawal
  confirmed : ∀ id request txHash withdrawal blockNumber,
    s.tasks id = some (request, .execute (.event txHash withdrawal blockNumber)) →
    Confirmed env genesis labels id request txHash withdrawal ∧ canonicalHash txHash ∈ s.observed
  registered : ∀ used ∈ s.db.nullifiers.rows, Earned env genesis labels s.observed used

section Later

variable {env genesis} {labels : List Label} (label : Label)

theorem Asked.later {id : Nat} {request : Request} {vault : VaultRow} {checks : Checks}
    (asked : Asked env genesis labels id request vault checks) :
    Asked env genesis (labels ++ [label]) id request vault checks := by
  obtain ⟨first, proof, moment, rest, before, own, same, facts⟩ := asked
  refine ⟨first, proof, moment, rest ++ [label], before, own, ?_, facts⟩
  rw [same, List.append_assoc, List.cons_append]

theorem Proven.later {token : ProofToken} (proven : Proven env genesis labels token) :
    Proven env genesis (labels ++ [label]) token := by
  obtain ⟨earlier, id, request, vault, checks, moment, rest, before, same, facts⟩ := proven
  refine ⟨earlier, id, request, vault, checks, moment, rest ++ [label], before, ?_, facts⟩
  rw [same, List.append_assoc, List.cons_append]

theorem Presented.later {id : Nat} {request : Request} {txHash : Text}
    {withdrawal : ExecutingWithdrawal}
    (presented : Presented env genesis labels id request txHash withdrawal) :
    Presented env genesis (labels ++ [label]) id request txHash withdrawal := by
  obtain ⟨earlier, body, moment, rest, token, asked, same, facts⟩ := presented
  refine ⟨earlier, body, moment, rest ++ [label], token, asked, ?_, facts⟩
  rw [same, List.append_assoc, List.cons_append]

theorem Shown.later {id : Nat} {request : Request} {task : ExecuteTask}
    {receipt : TransactionReceipt} (shown : Shown env genesis labels id request task receipt) :
    Shown env genesis (labels ++ [label]) id request task receipt := by
  obtain ⟨first, moment, rest, before, same, facts⟩ := shown
  refine ⟨first, moment, rest ++ [label], before, ?_, facts⟩
  rw [same, List.append_assoc, List.cons_append]

theorem Confirmed.later {id : Nat} {request : Request} {txHash : Text}
    {withdrawal : ExecutingWithdrawal}
    (confirmed : Confirmed env genesis labels id request txHash withdrawal) :
    Confirmed env genesis (labels ++ [label]) id request txHash withdrawal := by
  obtain ⟨presented, attempt, receipt, shown, succeeded⟩ := confirmed
  exact ⟨presented.later label, attempt, receipt, shown.later label, succeeded⟩

theorem Earned.later {observed observed' : List Text} {used : NullifierRow}
    (earned : Earned env genesis labels observed used) (more : observed ⊆ observed') :
    Earned env genesis (labels ++ [label]) observed' used := by
  obtain ⟨⟨id, request, withdrawal, blockNumber, receipt, executed, vaultId, own, shown, event⟩,
    confirmed⟩ := earned
  exact ⟨⟨id, request, withdrawal, blockNumber, receipt, executed.later label, vaultId, own,
    shown.later label, event⟩, more confirmed⟩

end Later

section Turns

variable {moment : Moment} {issued : List ProofToken} {db : Db}

/-- What a handler waits for when it begins, where it is one of the two proof routes. -/
inductive Starts (moment : Moment) (issued : List ProofToken) (db : Db) :
    Request → ExecuteTask → Prop
  | checking {proof : WithdrawProof} {vault : VaultRow}
      (found : vaultById db proof.vaultId = some vault) :
      Starts moment issued db (.verifyWithdraw proof)
        (.checking vault (checkVault env.crypto db moment.nowSecs proof vault))
  | waiting {body : ExecuteBody} {token : ProofToken} {withdrawal : ExecutingWithdrawal}
      (known : token ∈ issued) (early : moment.nowSecs < token.expiresAt)
      (vaultId : token.vaultId = withdrawal.vaultId)
      (nullifierHash : token.nullifierHash = withdrawal.nullifierHash) :
      Starts moment issued db (.executeWithdraw body)
        (.waiting (body.txHash.getD []) 1 withdrawal)

/-- How execute goes on. -/
inductive Goes : ExecuteTask → Reply → ExecuteTask → Prop
  | again {txHash : Text} {attempt later : Nat} {withdrawal : ExecutingWithdrawal} {reply : Reply} :
      Goes (.waiting txHash attempt withdrawal) reply (.waiting txHash later withdrawal)
  | confirmed {txHash : Text} {attempt : Nat} {withdrawal : ExecutingWithdrawal}
      {receipt : TransactionReceipt} (succeeded : receipt.succeeded = true) :
      Goes (.waiting txHash attempt withdrawal) (.rpc (.receipt (.ok receipt)))
        (.event txHash withdrawal receipt.blockNumber)

theorem readToken_ok {shown : Option ProofToken} {token : ProofToken}
    (read : readToken moment issued shown = .ok token) :
    token ∈ issued ∧ moment.nowSecs < token.expiresAt := by
  unfold readToken at read
  split at read
  · cases read
  · split_ifs at read with known early
    cases read
    exact ⟨known, early⟩

theorem executeWithdraw_starts {body : ExecuteBody} {task : ExecuteTask}
    (waits : (executeWithdraw moment issued db body).next = some task) :
    Starts env moment issued db (.executeWithdraw body) task := by
  unfold executeWithdraw at waits
  obtain ⟨withdrawal, asked, rfl⟩ := orReject_next waits
  simp only [bind_eq_ok, refuse_ok] at asked
  obtain ⟨_, -, _, -, token, read, _, named, asked⟩ := asked
  obtain ⟨known, early⟩ := readToken_ok read
  split at asked
  · cases asked
  · simp only [bind_eq_ok, refuse_ok, pure_eq_ok, Except.ok.injEq] at asked
    obtain ⟨_, -, rfl⟩ := asked
    exact .waiting known early (by simpa using named) rfl

theorem begin_starts {request : Request} {task : ExecuteTask}
    (next : (begin env moment issued db request).next = some (.execute task)) :
    Starts env moment issued db request task := by
  cases request with
  | verifyWithdraw proof =>
      obtain ⟨t, waits, same⟩ := lift_next.mp next
      cases same
      unfold Withdrawals.verifyWithdraw at waits
      split_ifs at waits
      · cases waits
      · split at waits
        · cases waits
        · next vault found =>
          cases waits
          exact .checking found
  | executeWithdraw body =>
      obtain ⟨t, waits, same⟩ := lift_next.mp next
      cases same
      exact executeWithdraw_starts env waits
  | withdraw body | processAuthorizations =>
      obtain ⟨t, -, other⟩ := liftPay_next.mp next
      cases other
  | prepareDeposit body | confirmDeposit body | relayDeposit body | spvDeposit body | auditVerify
  | autoSync =>
      obtain ⟨t, -, other⟩ := lift_next.mp next
      cases other

theorem resumeExecute_goes {task later : ExecuteTask} {reply : RpcReply} {turn : ExecuteTurn}
    (went : resumeExecute env.toConfig moment db task reply = some turn)
    (next : turn.next = some later) : Goes task (.rpc reply) later := by
  unfold resumeExecute at went
  split at went
  · cases went
    unfold afterCheck at next
    dsimp only at next
    split_ifs at next <;> cases next
  · cases went
    unfold afterWithdrawReceipt at next
    split at next
    · next confirmed =>
      cases next
      obtain ⟨rfl, succeeded⟩ := waitOnce_confirmed confirmed
      exact .confirmed succeeded
    · cases next
    · cases next
      exact .again
  · cases went
    unfold afterEvent at next
    split at next
    · cases next
    · split at next
      · cases next
      · split_ifs at next
        · rw [Deposits.commit_next] at next
          cases next
        · cases next
  · cases went

theorem resume_goes {nextRequest : Nat} {task : Task} {later : ExecuteTask} {reply : Reply}
    {turn : SystemTurn} (resumed : resume env moment nextRequest db task reply = some turn)
    (next : turn.next = some (.execute later)) : ∃ t, task = .execute t ∧ Goes t reply later := by
  cases resume_resumed env resumed with
  | @execute t answer turn went =>
      obtain ⟨_, waits, same⟩ := lift_next.mp next
      cases same
      exact ⟨t, rfl, resumeExecute_goes env went waits⟩
  | deposit _ | audit _ =>
      obtain ⟨t, -, other⟩ := lift_next.mp next
      cases other
  | executing | racing _ | orphaned _ | verifying | paying _ =>
      obtain ⟨t, -, other⟩ := liftPay_next.mp next
      cases other

theorem issuedBy_map {A : Type} {answer : A → Answer} {told : Option (Except Rejection A)}
    (other : ∀ a, issuedBy (some (.ok (answer a))) = []) :
    issuedBy (told.map fun result => result.map answer) = [] := by
  cases told with
  | none => rfl
  | some result =>
      cases result with
      | error rejection => rfl
      | ok a => exact other a

theorem begin_issues_nothing {request : Request} :
    issuedBy (begin env moment issued db request).answer = [] := by
  cases request with
  | verifyWithdraw proof =>
      show issuedBy (lift _ _ (Withdrawals.verifyWithdraw env.toConfig moment db proof)).answer = []
      unfold Withdrawals.verifyWithdraw
      split_ifs
      · rfl
      · split <;> rfl
  | executeWithdraw body =>
      show issuedBy (lift _ _ (executeWithdraw moment issued db body)).answer = []
      unfold executeWithdraw Turn.orReject
      split <;> rfl
  | withdraw body | processAuthorizations => exact issuedBy_map fun _ => rfl
  | prepareDeposit body | confirmDeposit body | relayDeposit body | spvDeposit body | auditVerify
  | autoSync => exact issuedBy_map fun _ => rfl

theorem conclude_token {vault : VaultRow} {checks : Checks} {registered : Bool} {nowSecs : Nat}
    {token : ProofToken}
    (signed : (conclude vault checks registered nowSecs).proofToken = some token) :
    token = ⟨vault.id, vault.commitment, vault.nullifierHash, vault.ownerAddress,
      nowSecs + 600⟩ := by
  dsimp only [conclude] at signed
  split_ifs at signed
  · exact (Option.some.inj signed).symm

theorem resumeExecute_issues {task : ExecuteTask} {reply : RpcReply} {turn : ExecuteTurn}
    {token : ProofToken} (went : resumeExecute env.toConfig moment db task reply = some turn)
    (signed : token ∈ issuedBy (lift Task.execute Answer.execute turn).answer) :
    ∃ vault checks, task = .checking vault checks ∧ reply = .commitmentRegistered true ∧
      (∀ entry ∈ ({ checks with onChainConfirmed := true } : Checks).entries, entry.2 = true) ∧
      token = ⟨vault.id, vault.commitment, vault.nullifierHash, vault.ownerAddress,
        moment.nowSecs + 600⟩ := by
  unfold resumeExecute at went
  split at went
  · next vault checks registered =>
    cases went
    unfold afterCheck at signed
    dsimp only at signed
    split_ifs at signed with valid
    · have passed := (conclude_valid ..).mp valid
      have confirmed : registered = true :=
        passed ("onChainConfirmed", registered) (by simp [Checks.entries])
      subst confirmed
      exact ⟨vault, checks, rfl, rfl, passed, conclude_token (Option.mem_toList.mp signed)⟩
    · cases signed
  · cases went
    unfold afterWithdrawReceipt at signed
    split at signed <;> cases signed
  · cases went
    unfold afterEvent at signed
    split at signed
    · cases signed
    · split at signed
      · cases signed
      · split_ifs at signed
        · unfold Turn.commit at signed
          split at signed <;> cases signed
        · cases signed
  · cases went

/-- Only the verifier's last check signs a token. -/
theorem resume_issues {nextRequest : Nat} {task : Task} {reply : Reply} {turn : SystemTurn}
    {token : ProofToken} (resumed : resume env moment nextRequest db task reply = some turn)
    (signed : token ∈ issuedBy turn.answer) :
    ∃ vault checks, task = .execute (.checking vault checks) ∧
      reply = .rpc (.commitmentRegistered true) ∧
      (∀ entry ∈ ({ checks with onChainConfirmed := true } : Checks).entries, entry.2 = true) ∧
      token = ⟨vault.id, vault.commitment, vault.nullifierHash, vault.ownerAddress,
        moment.nowSecs + 600⟩ := by
  have quiet : issuedBy turn.answer ≠ [] := List.ne_nil_of_mem signed
  cases resume_resumed env resumed with
  | @execute t answer turn went =>
      obtain ⟨vault, checks, rfl, rfl, concluded⟩ := resumeExecute_issues env went signed
      exact ⟨vault, checks, rfl, rfl, concluded⟩
  | deposit _ | audit _ => exact (quiet (issuedBy_map fun _ => rfl)).elim
  | executing | racing _ | orphaned _ | verifying | paying _ =>
      exact (quiet (issuedBy_map fun _ => rfl)).elim

theorem expire_issues_nothing {task : Task} {turn : SystemTurn}
    (expired : expire moment db task = some turn) : issuedBy turn.answer = [] := by
  cases expire_expired expired with
  | racing => exact issuedBy_map fun _ => rfl

end Turns

variable {env genesis} {labels : List Label} {s s' : State} {label : Label}

theorem settle_waits {heard : State} {id own : Nat} {request asked : Request} {turn : SystemTurn}
    {task : Task} (same : heard.tasks = s.tasks)
    (waits : (settle heard own asked turn).tasks id = some (request, task)) :
    (id = own ∧ asked = request ∧ turn.next = some task) ∨ s.tasks id = some (request, task) := by
  rw [settle_tasks, same] at waits
  split_ifs at waits with here
  · obtain ⟨later, next, told⟩ := Option.map_eq_some_iff.mp waits
    cases told
    exact Or.inl ⟨here, rfl, next⟩
  · exact Or.inr waits

theorem step_observed (stepped : step env s label = some s') : s.observed ⊆ s'.observed := by
  cases step_stepped env stepped with
  | request _ | timeout _ _ | land | block _ => exact List.Subset.refl _
  | reply _ _ => exact List.subset_append_left _ _

theorem step_ran (traced : Traced env genesis labels s) (stepped : step env s label = some s') :
    GuardedRun.run (step env) (boot genesis) (labels ++ [label]) = some s' :=
  GuardedRun.run_snoc.mpr ⟨s, traced.ran, stepped⟩

theorem step_asked (traced : Traced env genesis labels s) (stepped : step env s label = some s')
    {id : Nat} {request : Request} {vault : VaultRow} {checks : Checks}
    (waits : s'.tasks id = some (request, .execute (.checking vault checks))) :
    Asked env genesis (labels ++ [label]) id request vault checks := by
  cases step_stepped env stepped with
  | @request own asked moment idle =>
      rcases settle_waits rfl waits with ⟨rfl, rfl, next⟩ | before
      · cases begin_starts env next with
        | @checking proof _ found =>
            exact ⟨labels, proof, moment, [], s, rfl, rfl, traced.ran, found, rfl⟩
      · exact (traced.asked _ _ _ _ before).later _
  | reply held resumed =>
      rcases settle_waits rfl waits with ⟨rfl, rfl, next⟩ | before
      · obtain ⟨t, -, goes⟩ := resume_goes env resumed next
        cases goes
      · exact (traced.asked _ _ _ _ before).later _
  | timeout held expired =>
      rcases settle_waits rfl waits with ⟨rfl, rfl, next⟩ | before
      · obtain ⟨t, other⟩ := expire_next expired next
        cases other
      · exact (traced.asked _ _ _ _ before).later _
  | land => exact (traced.asked _ _ _ _ waits).later _
  | block fresh => exact (traced.asked _ _ _ _ waits).later _

theorem step_waiting (traced : Traced env genesis labels s) (stepped : step env s label = some s')
    {id attempt : Nat} {request : Request} {txHash : Text} {withdrawal : ExecutingWithdrawal}
    (waits : s'.tasks id = some (request, .execute (.waiting txHash attempt withdrawal))) :
    Presented env genesis (labels ++ [label]) id request txHash withdrawal := by
  cases step_stepped env stepped with
  | @request own asked moment idle =>
      rcases settle_waits rfl waits with ⟨rfl, rfl, next⟩ | before
      · cases begin_starts env next with
        | @waiting body token _ known early vaultId nullifierHash =>
            exact ⟨labels, body, moment, [], token, rfl, rfl, rfl, traced.issued token known, early,
              vaultId, nullifierHash⟩
      · exact (traced.waiting _ _ _ _ _ before).later _
  | reply held resumed =>
      rcases settle_waits rfl waits with ⟨rfl, rfl, next⟩ | before
      · obtain ⟨t, rfl, goes⟩ := resume_goes env resumed next
        cases goes with
        | again => exact (traced.waiting _ _ _ _ _ held).later _
      · exact (traced.waiting _ _ _ _ _ before).later _
  | timeout held expired =>
      rcases settle_waits rfl waits with ⟨rfl, rfl, next⟩ | before
      · obtain ⟨t, other⟩ := expire_next expired next
        cases other
      · exact (traced.waiting _ _ _ _ _ before).later _
  | land => exact (traced.waiting _ _ _ _ _ waits).later _
  | block fresh => exact (traced.waiting _ _ _ _ _ waits).later _

theorem step_confirmed (traced : Traced env genesis labels s)
    (stepped : step env s label = some s') {id blockNumber : Nat} {request : Request}
    {txHash : Text} {withdrawal : ExecutingWithdrawal}
    (waits : s'.tasks id = some (request, .execute (.event txHash withdrawal blockNumber))) :
    Confirmed env genesis (labels ++ [label]) id request txHash withdrawal ∧
      canonicalHash txHash ∈ s'.observed := by
  have kept : s.tasks id = some (request, .execute (.event txHash withdrawal blockNumber)) →
      Confirmed env genesis (labels ++ [label]) id request txHash withdrawal ∧
        canonicalHash txHash ∈ s'.observed := by
    intro before
    obtain ⟨confirmed, seen⟩ := traced.confirmed _ _ _ _ _ before
    exact ⟨confirmed.later _, step_observed stepped seen⟩
  cases step_stepped env stepped with
  | @request own asked moment idle =>
      rcases settle_waits rfl waits with ⟨rfl, rfl, next⟩ | before
      · cases begin_starts env next
      · exact kept before
  | reply held resumed =>
      rcases settle_waits rfl waits with ⟨rfl, rfl, next⟩ | before
      · obtain ⟨t, rfl, goes⟩ := resume_goes env resumed next
        cases goes with
        | @confirmed _ attempt _ receipt succeeded =>
            refine ⟨⟨(traced.waiting _ _ _ _ _ held).later _, attempt, receipt, ?_, succeeded⟩,
              List.mem_append_right _ ?_⟩
            · exact ⟨labels, _, [], s, rfl, traced.ran, held⟩
            · simp [observes, showsSuccess, asksReceipt, succeeded]
      · exact kept before
  | timeout held expired =>
      rcases settle_waits rfl waits with ⟨rfl, rfl, next⟩ | before
      · obtain ⟨t, other⟩ := expire_next expired next
        cases other
      · exact kept before
  | land => exact kept waits
  | block fresh => exact kept waits

theorem step_issued (traced : Traced env genesis labels s) (stepped : step env s label = some s')
    {token : ProofToken} (known : token ∈ s'.issued) :
    Proven env genesis (labels ++ [label]) token := by
  cases step_stepped env stepped with
  | request idle =>
      rw [settle, begin_issues_nothing, List.append_nil] at known
      exact (traced.issued token known).later _
  | @reply id request task reply moment turn waits resumed =>
      rcases List.mem_append.mp known with old | signed
      · exact (traced.issued token old).later _
      · obtain ⟨vault, checks, rfl, rfl, concluded⟩ := resume_issues env resumed signed
        exact ⟨labels, id, request, vault, checks, moment, [], s, rfl, traced.ran, waits,
          traced.asked _ _ _ _ waits, concluded⟩
  | timeout waits expired =>
      rw [settle, expire_issues_nothing expired, List.append_nil] at known
      exact (traced.issued token known).later _
  | land => exact (traced.issued token known).later _
  | block fresh => exact (traced.issued token known).later _

theorem step_registered (traced : Traced env genesis labels s)
    (stepped : step env s label = some s') {used : NullifierRow}
    (member : used ∈ s'.db.nullifiers.rows) :
    Earned env genesis (labels ++ [label]) s'.observed used := by
  have kept : used ∈ s.db.nullifiers.rows →
      Earned env genesis (labels ++ [label]) s'.observed used := fun old =>
    (traced.registered used old).later label (step_observed stepped)
  cases step_wrote env stepped with
  | nothing _ nullifiers => exact kept (nullifiers ▸ member)
  | wrote write issues _ nullifiers =>
      rw [nullifiers] at member
      rcases List.mem_append.mp member with old | new
      · exact kept old
      · cases write with
        | spend txHash nullifierHash withdrawal usedAt =>
            cases List.mem_singleton.mp new
            cases issues with
            | @spent id blockNumber request moment _ _ _ _ receipt _ waits own answer event _ =>
                subst answer
                obtain ⟨confirmed, seen⟩ := traced.confirmed _ _ _ _ _ waits
                have shown : Shown env genesis (labels ++ [_]) id request _ receipt :=
                  ⟨labels, moment, [], s, rfl, traced.ran, waits⟩
                exact ⟨⟨id, request, withdrawal, blockNumber, receipt, confirmed.later _, rfl, own,
                  shown, event⟩, step_observed stepped seen⟩
            | spv _ _ _ _ _ told => split_ifs at told
            | relayed _ _ _ told => rcases told with told | told <;> cases told
        | _ => cases new

theorem step_traced (traced : Traced env genesis labels s) (stepped : step env s label = some s') :
    Traced env genesis (labels ++ [label]) s' where
  ran := step_ran traced stepped
  asked _ _ _ _ waits := step_asked traced stepped waits
  issued _ known := step_issued traced stepped known
  waiting _ _ _ _ _ waits := step_waiting traced stepped waits
  confirmed _ _ _ _ _ waits := step_confirmed traced stepped waits
  registered _ member := step_registered traced stepped member

theorem boot_traced : Traced env genesis [] (boot genesis) where
  ran := rfl
  asked _ _ _ _ waits := by cases waits
  issued _ known := by cases known
  waiting _ _ _ _ _ waits := by cases waits
  confirmed _ _ _ _ _ waits := by cases waits
  registered _ member := by cases member

section Sample

def lateMoment : Moment := { sampleMoment ['l'] with now := 1800000000000000 }

def sampleProof : ProofToken where
  vaultId := nilUuid
  commitment := ['0', 'x', '0']
  nullifierHash := some ['0', 'x', '0']
  ownerAddress := sampleHash '1'
  expiresAt := 1800000000600

/-- A deposit, its proof after the time lock, and the withdrawal with the token. -/
def provenLabels : List Label :=
  [.request 0 (.spvDeposit { sampleDeposit with
      commitment := ['0', 'x', '0']
      nullifierHash := some ['0', 'x', '0']
      amount := some (.finite (1 / 10 ^ 15)) }) (sampleMoment ['d']),
    .reply 0 (.rpc (.headerStored true)) (sampleMoment ['d']),
    .reply 0 (.rpc (.executed (.ok (sampleHash '3')))) (sampleMoment ['d']),
    .reply 0 (.rpc (.receipt (.ok ⟨1, true, []⟩))) (sampleMoment ['d']),
    .request 1 (.verifyWithdraw ⟨nilUuid, ['1'], sampleHash '1'⟩) lateMoment,
    .reply 1 (.rpc (.commitmentRegistered true)) lateMoment,
    .request 2 (.executeWithdraw ⟨⟨applicationJson, false⟩, some nilUuid, some sampleProof,
      some (sampleHash '4')⟩) lateMoment,
    .reply 2 (.rpc (.receipt (.ok ⟨2, true, []⟩))) lateMoment,
    .reply 2 (.rpc (.receipt (.ok ⟨2, true, [⟨sampleHash '2', [], [['0', 'x', '0']]⟩]⟩)))
      lateMoment]

end Sample

end PrivateBtc.Backend.ProofTokens
