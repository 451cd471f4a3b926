/- PrivateBtc/Backend/BackedPayouts
   digest: Each confirmed payout that lands has a withdrawal of its own on the other chain. -/

import PrivateBtc.Backend.BurnGrants
import PrivateBtc.Backend.ChainBurns
import PrivateBtc.Backend.PayoutFidelity
import PrivateBtc.Backend.PayoutFinality
import PrivateBtc.Backend.PayoutOnce

set_option autoImplicit false
set_option relaxedAutoImplicit false

namespace PrivateBtc.Backend.BackedPayouts

open Library Library.JsText Library.Outcome
open Authorizations BurnGrants Calldata CarriedRows ChainBurns ChainEvidence CryptoService Database
open Grants Http Payments PayoutFidelity PayoutFinality PayoutOnce Processor Server StoredNullifiers
open VaultWrites Withdrawals
open Contracts.Vault (Call WithdrawArgs)
open WithdrawGate (WithdrawBody WithdrawCall WithdrawRequest withdrawGate)

/-- The call withdraws what the vault with this id holds, under its nullifier. -/
structure CalledFor (crypto : Crypto) (db : Db) (vaultId : Text) (call : WithdrawCall) : Prop where
  vault : ∃ row ∈ db.vaults.rows, row.id = vaultId ∧
    row.nullifierHash = some call.nullifierHash ∧
    decryptAmount crypto row.encryptedAmount row.salt = .ok call.amount
  proof : call.proof = [call.nullifierHash]

/-- The hash is the answer to a call for this vault. -/
def Backs (crypto : Crypto) (submissions : List Submission) (db : Db) (vaultId txHash : Text) :
    Prop :=
  ∃ submission ∈ submissions, submission.outcome = .ok txHash ∧
    CalledFor crypto db vaultId submission.call

section Calls

variable {crypto : Crypto} {db db' : Db} {vaultId txHash : Text} {call : WithdrawCall}
  {submissions : List Submission}

theorem CalledFor.kept (called : CalledFor crypto db vaultId call) (keeps : Keeps db db') :
    CalledFor crypto db' vaultId call := by
  obtain ⟨row, member, here, own, amount⟩ := called.vault
  obtain ⟨row', member', kept⟩ := keeps row member
  refine ⟨⟨row', member', kept.same.id.trans here, kept.nullifier _ own, ?_⟩, called.proof⟩
  rw [kept.same.encryptedAmount, kept.same.salt, amount]

theorem Backs.kept (backs : Backs crypto submissions db vaultId txHash) (keeps : Keeps db db')
    (more : List Submission) : Backs crypto (submissions ++ more) db' vaultId txHash := by
  obtain ⟨submission, member, told, called⟩ := backs
  exact ⟨submission, List.mem_append_left _ member, told, called.kept keeps⟩

theorem submit_called {senderAddress : Option Text} {body : WithdrawBody}
    {request : WithdrawRequest} {vault : VaultRow}
    (gate : withdrawGate senderAddress crypto db body = .ok (.submit request vault call)) :
    CalledFor crypto db vault.id call := by
  cases WithdrawGate.withdrawGate_opens gate with
  | submit screens _ _ decrypted _ =>
      obtain ⟨member, named⟩ := screens.member
      exact ⟨⟨vault, member, rfl, named, decrypted⟩, rfl⟩

end Calls

/-- A handler that may record a transaction which the client has brought. -/
def spending : Task → Bool
  | .execute (.waiting _ _ _) | .execute (.event _ _ _) => true
  | _ => false

variable (env : Environment)

section Spending

theorem begin_spending {moment : Moment} {issued : List ProofVerifier.ProofToken} {db : Db}
    {request : Request} {later : Task}
    (next : (begin env moment issued db request).next = some later)
    (spends : spending later = true) : ∃ body, request = .executeWithdraw body := by
  cases request with
  | executeWithdraw body => exact ⟨body, rfl⟩
  | verifyWithdraw proof =>
      obtain ⟨task, waits, rfl⟩ := Option.map_eq_some_iff.mp next
      unfold Withdrawals.verifyWithdraw at waits
      split_ifs at waits
      · cases waits
      · split at waits <;> cases waits
        cases spends
  | _ =>
      obtain ⟨_, _, rfl⟩ := Option.map_eq_some_iff.mp next
      cases spends

theorem resume_spending {moment : Moment} {nextRequest : Nat} {db : Db} {task : Task}
    {reply : Reply} {turn : SystemTurn} {later : Task}
    (resumed : resume env moment nextRequest db task reply = some turn)
    (next : turn.next = some later) (spends : spending later = true) : spending task = true := by
  cases resume_resumed env resumed with
  | @execute t rpc after went =>
      cases t with
      | checking vault checks =>
          obtain ⟨t, next, rfl⟩ := lift_next.mp next
          cases rpc with
          | commitmentRegistered registered =>
              cases went
              unfold afterCheck at next
              dsimp only at next
              split_ifs at next <;> cases next
          | _ => cases went
      | _ => rfl
  | _ =>
      obtain ⟨_, _, rfl⟩ := Option.map_eq_some_iff.mp next
      cases spends

/-- Without requests of the execute route no handler of it waits. -/
theorem step_spending {s s' : State} {label : Label}
    (idle : ∀ id request task, s.tasks id = some (request, task) → spending task = false)
    (route : ∀ id body moment, label ≠ .request id (.executeWithdraw body) moment)
    (stepped : step env s label = some s') :
    ∀ id request task, s'.tasks id = some (request, task) → spending task = false := by
  intro id request task waits
  cases spends : spending task with
  | false => rfl
  | true =>
      cases step_arises env stepped waits with
      | kept held => exact spends ▸ idle _ _ _ held
      | begun next =>
          obtain ⟨body, rfl⟩ := begin_spending env next spends
          exact absurd rfl (route _ body _)
      | resumed held went next =>
          exact (resume_spending env went next spends) ▸ idle _ _ _ held
      | expired held went next =>
          obtain ⟨t, rfl⟩ := expire_next went next
          cases spends

end Spending

section Hashes

variable {s : State} {label : Label} {write : VaultWrite}

/-- A new vault has not been withdrawn. -/
theorem insert_first {row : VaultRow} (issues : Issues env s label (.insert row)) :
    row.withdrawTxHash = none := by
  cases issues with
  | prepared waits made =>
      simp only [Deposits.preparedRow, bind_eq_ok, pure_eq_ok, Except.ok.injEq] at made
      obtain ⟨commitment, -, nullifierHash, -, rfl⟩ := made
      rfl
  | spv _ _ _ _ _ told =>
      split_ifs at told
      cases told
      rfl
  | relayed _ _ _ told =>
      rcases told with told | told <;> cases told
      rfl

/-- A statement keeps the withdrawal hash of a vault, unless it closes it or spends it. -/
theorem written_hash {v : VaultRow} {txHash : Text}
    (has : (write.written v).withdrawTxHash = some txHash) :
    v.withdrawTxHash = some txHash ∨
      (∃ withdrawing, write = .close withdrawing ∧ v.id = withdrawing.vaultId ∧
        withdrawing.txHash = txHash) ∨
      ∃ hash nullifierHash withdrawal usedAt,
        write = .spend hash nullifierHash withdrawal usedAt := by
  unfold VaultWrite.written at has
  split_ifs at has with selected
  · cases write with
    | close withdrawing =>
        exact Or.inr (Or.inl ⟨withdrawing, rfl, beq_iff_eq.mp selected, Option.some.inj has⟩)
    | spend hash nullifierHash withdrawal usedAt =>
        exact Or.inr (Or.inr ⟨hash, nullifierHash, withdrawal, usedAt, rfl⟩)
    | _ => exact Or.inl has
  · exact Or.inl has

end Hashes

/-- The payouts go their orderly way, the node is honest, also about receipts, and nobody has the
execute route record a transaction of his own. -/
structure Bridged (t : Logged) (label : Label) : Prop where
  orderly : Orderly env t.state label
  honest : Honest env t.state label
  shown : ∀ id reply moment, label = .reply id reply moment → showsSuccess reply = true →
    ∀ asked task txHash, t.state.tasks id = some (asked, task) → asksReceipt task = some txHash →
      ∃ calls, t.state.chain.included (canonicalHash txHash) = some ⟨calls, true⟩
  route : ∀ id body moment, label ≠ .request id (.executeWithdraw body) moment

/-- What the answered calls say about the chain. -/
structure Told (chain : Chain) (submissions : List Submission) : Prop where
  submitted : ∀ submission ∈ submissions, ∀ txHash, submission.outcome = .ok txHash →
    chain.submitted (canonicalHash txHash) =
      some ((Invocation.withdraw submission.call).calls env.felts env.relayer)
  single : ∀ a ∈ submissions, ∀ b ∈ submissions, ∀ txHash txHash', a.outcome = .ok txHash →
    b.outcome = .ok txHash' → canonicalHash txHash = canonicalHash txHash' → a.call = b.call

/-- Whatever names a withdrawal transaction names the answer to a call for its vault. -/
structure Attributed (t : Logged) : Prop where
  idle : ∀ id asked task, t.state.tasks id = some (asked, task) → spending task = false
  asked : ∀ id asked request vault call,
    t.state.tasks id = some (asked, .withdraw (.executing request vault call)) →
      CalledFor env.crypto t.state.db vault.id call
  racing : ∀ id asked withdrawing payout,
    t.state.tasks id = some (asked, .withdraw (.racing withdrawing payout)) →
      withdrawing.isRetry = false →
        Backs env.crypto t.submissions t.state.db withdrawing.vaultId withdrawing.txHash
  vaults : ∀ row ∈ t.state.db.vaults.rows, ∀ txHash, row.withdrawTxHash = some txHash →
    Backs env.crypto t.submissions t.state.db row.id txHash
  grants : ∀ id grant, grantOf t.state.db id = some grant →
    Backs env.crypto t.submissions t.state.db grant.vaultId grant.starknetTxHash

/-- What every bridged run keeps. -/
structure Ledger (t : Logged) : Prop where
  consumes : Consumes t.state.chain
  told : Told env t.state.chain t.submissions
  attributed : Attributed env t
  sound : ∃ labels, Sound env labels t.state
  safe : Safe env t.state
  observed : ∀ hash ∈ t.state.observed, ∃ calls, t.state.chain.included hash = some ⟨calls, true⟩

section Steps

variable {env} {t : Logged} {s' : State} {label : Label}

theorem answered_cases {submission : Submission} {txHash : Text}
    (member : submission ∈ answered t.state label) (told : submission.outcome = .ok txHash) :
    ∃ id moment asked vault, label = .reply id (.rpc (.executed (.ok txHash))) moment ∧
      t.state.tasks id =
        some (asked, .withdraw (.executing submission.request vault submission.call)) := by
  unfold answered at member
  split at member
  · next id outcome moment =>
    split at member
    · next asked request vault call waits =>
      rw [List.mem_singleton] at member
      subst member
      dsimp only at told
      subst told
      exact ⟨id, moment, asked, vault, rfl, waits⟩
    · cases member
  · cases member

theorem answered_mem {id : Nat} {moment : Moment} {asked : Request} {request : WithdrawRequest}
    {vault : VaultRow} {call : WithdrawCall} {txHash : Text}
    (waits : t.state.tasks id = some (asked, .withdraw (.executing request vault call))) :
    ⟨request, call, .ok txHash⟩ ∈
      answered t.state (.reply id (.rpc (.executed (.ok txHash))) moment) := by
  simp [answered, waits]

theorem step_told (told : Told env t.state.chain t.submissions) (honest : Honest env t.state label)
    (stepped : step env t.state label = some s') :
    Told env s'.chain (t.submissions ++ answered t.state label) := by
  have kept : ∀ hash sent, t.state.chain.submitted hash = some sent →
      s'.chain.submitted hash = some sent := by
    intro hash sent submitted
    cases step_stepped env stepped with
    | request idle => exact submitted
    | reply waits resumed => exact submit_kept honest waits submitted
    | timeout waits expired => exact submitted
    | land => exact submitted
    | block fresh =>
        simp only [includeCalls]
        exact submitted
  have fresh : ∀ submission ∈ answered t.state label, ∀ txHash, submission.outcome = .ok txHash →
      t.state.chain.submitted (canonicalHash txHash) = none ∧
        s'.chain.submitted (canonicalHash txHash) =
          some ((Invocation.withdraw submission.call).calls env.felts env.relayer) := by
    intro submission member txHash answer
    obtain ⟨id, moment, asked, vault, rfl, waits⟩ := answered_cases member answer
    refine ⟨(honest asked _ (.withdraw submission.call) waits rfl).1, ?_⟩
    simp only [step, waits, Option.bind_eq_bind, Option.bind_some, resume, Option.pure_def,
      Option.some.injEq] at stepped
    subst stepped
    exact Function.update_self ..
  constructor
  · intro submission member txHash answer
    rcases List.mem_append.mp member with old | new
    · exact kept _ _ (told.submitted submission old txHash answer)
    · exact (fresh submission new txHash answer).2
  · intro a a_mem b b_mem txHash txHash' a_told b_told same
    rcases List.mem_append.mp a_mem with a_old | a_new <;>
      rcases List.mem_append.mp b_mem with b_old | b_new
    · exact told.single a a_old b b_old txHash txHash' a_told b_told same
    · have old := told.submitted a a_old txHash a_told
      rw [same, (fresh b b_new txHash' b_told).1] at old
      cases old
    · have old := told.submitted b b_old txHash' b_told
      rw [← same, (fresh a a_new txHash a_told).1] at old
      cases old
    · obtain ⟨id, moment, asked, vault, rfl, waits⟩ := answered_cases a_new a_told
      obtain ⟨id', moment', asked', vault', here, waits'⟩ := answered_cases b_new b_told
      cases here
      simp only [waits, Option.some.injEq, Prod.mk.injEq, Task.withdraw.injEq,
        WithdrawTask.executing.injEq] at waits'
      exact waits'.2.2.2

theorem step_attributed (attributed : Attributed env t) (consistent : Consistent t.state)
    (tracked : Tracked t.state)
    (route : ∀ id body moment, label ≠ .request id (.executeWithdraw body) moment)
    (stepped : step env t.state label = some s') :
    Attributed env ⟨s', t.submissions ++ answered t.state label⟩ := by
  have keeps := step_keeps consistent stepped
  have later : ∀ {vaultId txHash : Text}, Backs env.crypto t.submissions t.state.db vaultId txHash →
      Backs env.crypto (t.submissions ++ answered t.state label) s'.db vaultId txHash :=
    fun backs => backs.kept keeps _
  have fresh : ∀ {id moment asked request vault call txHash},
      t.state.tasks id = some (asked, .withdraw (.executing request vault call)) →
      label = .reply id (.rpc (.executed (.ok txHash))) moment →
      Backs env.crypto (t.submissions ++ answered t.state label) s'.db vault.id txHash := by
    rintro id moment asked request vault call txHash waits rfl
    exact ⟨_, List.mem_append_right _ (answered_mem waits), rfl,
      (attributed.asked id asked request vault call waits).kept keeps⟩
  constructor
  case idle => exact step_spending env attributed.idle route stepped
  case asked =>
    intro id asked request vault call waits
    cases step_arises env stepped waits with
    | kept held => exact (attributed.asked _ _ _ _ _ held).kept keeps
    | begun next =>
        cases begin_withdraw env next with
        | submit gate => exact (submit_called gate).kept keeps
    | resumed held went next => cases resume_withdraw env went next
    | expired held went next =>
        obtain ⟨_, _, -, orphaned⟩ := expire_withdraw went next
        cases orphaned
  case racing =>
    intro id asked withdrawing payout waits first
    cases step_arises env stepped waits with
    | kept held => exact later (attributed.racing _ _ _ _ held first)
    | begun next =>
        rw [begin_racing env next] at first
        cases first
    | resumed held went next =>
        cases resume_withdraw env went next with
        | racing _ before _ was =>
            subst was
            exact later (attributed.racing _ _ _ _ held first)
        | submitted request vault call txHash payout was answer =>
            subst was answer
            exact fresh held rfl
    | expired held went next =>
        obtain ⟨_, _, -, orphaned⟩ := expire_withdraw went next
        cases orphaned
  case vaults =>
    intro row member txHash has
    cases step_wrote env stepped with
    | nothing vaults _ => exact later (attributed.vaults row (vaults ▸ member) txHash has)
    | wrote write issues rows _ =>
        rw [rows] at member
        rcases List.mem_append.mp member with old | new
        · obtain ⟨v, there, rfl⟩ := List.mem_map.mp old
          rw [write.written_id]
          rcases written_hash has with kept | ⟨withdrawing, rfl, here, rfl⟩ | ⟨_, _, _, _, rfl⟩
          · exact later (attributed.vaults v there txHash kept)
          · rw [here]
            cases issues with
            | submitted waits => exact fresh waits rfl
            | raced waits first => exact later (attributed.racing _ _ _ _ waits first)
            | expired waits first => exact later (attributed.racing _ _ _ _ waits first)
            | spv _ _ _ _ _ told => split_ifs at told
            | relayed _ _ _ told => rcases told with told | told <;> cases told
          · cases issues with
            | spent waits _ _ _ _ => cases attributed.idle _ _ _ waits
            | spv _ _ _ _ _ told => split_ifs at told
            | relayed _ _ _ told => rcases told with told | told <;> cases told
        · cases write with
          | insert row' =>
              cases List.mem_singleton.mp new
              rw [insert_first env issues] at has
              cases has
          | _ => cases new
  case grants =>
    intro id grant found
    rcases (step_grants env tracked stepped).1 id grant found with old | makes
    · exact later (attributed.grants id grant old)
    · rcases makes with ⟨_, body, _, request, vault, txHash, -, gate, made⟩ |
        ⟨id, moment, asked, request, vault, call, txHash, told, waits, made⟩
      · obtain ⟨screens, has⟩ := WithdrawGate.withdrawGate_retry gate
        rw [made.vaultId, made.starknetTxHash]
        exact later (attributed.vaults vault screens.member.1 txHash has)
      · rw [made.vaultId, made.starknetTxHash]
        exact fresh waits told

theorem step_observed (shown : ∀ id reply moment, label = .reply id reply moment →
      showsSuccess reply = true → ∀ asked task txHash, t.state.tasks id = some (asked, task) →
        asksReceipt task = some txHash →
          ∃ calls, t.state.chain.included (canonicalHash txHash) = some ⟨calls, true⟩)
    (observed : ∀ hash ∈ t.state.observed,
      ∃ calls, t.state.chain.included hash = some ⟨calls, true⟩)
    (stepped : step env t.state label = some s') :
    ∀ hash ∈ s'.observed, ∃ calls, s'.chain.included hash = some ⟨calls, true⟩ := by
  have kept : ∀ hash, (∃ calls, t.state.chain.included hash = some ⟨calls, true⟩) →
      ∃ calls, s'.chain.included hash = some ⟨calls, true⟩ :=
    fun hash ⟨calls, there⟩ => ⟨calls, step_included stepped there⟩
  intro hash member
  apply kept
  cases step_stepped env stepped with
  | request idle => exact observed hash member
  | @reply id asked task reply moment turn waits resumed =>
      rcases List.mem_append.mp member with old | new
      · exact observed hash old
      · unfold observes at new
        split_ifs at new with success
        · rw [Option.mem_toList, Option.map_eq_some_iff] at new
          obtain ⟨txHash, asks, rfl⟩ := new
          exact shown id reply moment rfl success asked task txHash waits asks
        · cases new
  | timeout waits expired => exact observed hash member
  | land => exact observed hash member
  | block fresh => exact observed hash member

theorem step_ledger (ledger : Ledger env t) (bridged : Bridged env t label)
    (stepped : step env t.state label = some s') :
    Ledger env ⟨s', t.submissions ++ answered t.state label⟩ := by
  obtain ⟨labels, sound⟩ := ledger.sound
  constructor
  case consumes => exact step_consumes ledger.consumes bridged.honest stepped
  case told => exact step_told ledger.told bridged.honest stepped
  case attributed =>
    exact step_attributed ledger.attributed sound.consistent sound.tracked bridged.route stepped
  case sound => exact ⟨labels ++ [label], step_sound env sound stepped⟩
  case safe =>
    exact ⟨(step_steps env ledger.safe.1 ledger.safe.2 bridged.orderly stepped).invariant
      ledger.safe.1, (step_carries env ledger.safe.2 stepped).2⟩
  case observed => exact step_observed bridged.shown ledger.observed stepped

end Steps

/-- A server that starts on a database without withdrawals, over a chain that it is new to. -/
structure Fresh (s : State) : Prop where
  starts : Starts s
  issued : s.issued = []
  observed : s.observed = []
  authorizations : s.db.authorizations.rows = []
  vaults : ∀ row ∈ s.db.vaults.rows, row.withdrawTxHash = none
  submitted : ∀ hash, s.chain.submitted hash = none
  included : ∀ hash, s.chain.included hash = none

theorem boot_fresh (genesis : Contracts.Vault.Genesis) : Fresh (boot genesis) := by
  constructor
  case starts => exact ⟨fun _ => rfl, rfl⟩
  case vaults => exact fun row member => by cases member
  all_goals first | rfl | exact fun _ => rfl

theorem fresh_ledger {start : State} (fresh : Fresh start) : Ledger env ⟨start, []⟩ := by
  have unwaiting : ∀ id (held : Request × Task), start.tasks id = some held → False := by
    intro id held waits
    rw [fresh.starts.tasks] at waits
    cases waits
  have ungranted : ∀ id grant, grantOf start.db id = some grant → False := by
    intro id grant found
    obtain ⟨row, stored, -⟩ := Option.map_eq_some_iff.mp found
    have member := (Table.find?_some stored).1
    rw [fresh.authorizations] at member
    cases member
  have unincluded : ∀ hash held, start.chain.included hash = some held → False := by
    intro hash held there
    rw [fresh.included] at there
    cases there
  have carries : Carries start := fun id request task waits => (unwaiting id _ waits).elim
  constructor
  case consumes =>
    refine ⟨fun hash sent held _ there => (unincluded hash held there).elim,
      fun hash held there => (unincluded hash held there).elim, ?_, ?_⟩
    · rintro hash args ⟨calls, caller, there, -⟩
      exact (unincluded hash _ there).elim
    · rintro hash hash' args args' ⟨calls, caller, there, -⟩
      exact (unincluded hash _ there).elim
  case told =>
    constructor
    · intro submission member
      cases member
    · intro a member
      cases member
  case attributed =>
    refine ⟨fun id asked task waits => (unwaiting id _ waits).elim,
      fun id asked request vault call waits => (unwaiting id _ waits).elim,
      fun id asked withdrawing payout waits => (unwaiting id _ waits).elim, ?_,
      fun id grant found => (ungranted id grant found).elim⟩
    intro row member txHash has
    rw [fresh.vaults row member] at has
    cases has
  case sound =>
    refine ⟨[], starts_consistent fresh.starts fresh.issued, starts_tracked fresh.starts,
      fun id asked request vault call waits => (unwaiting id _ waits).elim,
      fun id grant found => (ungranted id grant found).elim, ?_⟩
    intro broadcast member
    rw [fresh.starts.broadcasts] at member
    cases member
  case safe => exact ⟨starts_invariant env fresh.starts, carries⟩
  case observed =>
    intro hash member
    rw [fresh.observed] at member
    cases member

/-- This payment has landed for the authorization, and the receipt of its transaction was seen. -/
structure Settled (s : State) (index : Nat) (broadcast : Broadcast)
    (row : WithdrawalAuthorization) : Prop where
  sent : s.broadcasts[index]? = some broadcast
  landed : broadcast.landed = true
  stored : row ∈ s.db.authorizations.rows
  named : row.id = broadcast.authId
  final : Final s row.starknetTxHash

section Payouts

variable {env} {t : Logged} {index : Nat} {broadcast : Broadcast} {row : WithdrawalAuthorization}

/-- The withdrawal behind a settled payment, under the hash of its authorization. -/
structure BurnedFor (env : Environment) (t : Logged) (row : WithdrawalAuthorization)
    (args : WithdrawArgs) : Prop where
  burned : Burned t.state.chain (canonicalHash row.starknetTxHash) args
  nullifier : env.felts.felt row.nullifierHash = some args.nullifier
  amount : row.amountSats = actualSats args.amount.val
  answered : ∃ submission ∈ t.submissions, submission.outcome = .ok row.starknetTxHash ∧
    submission.call.nullifierHash = row.nullifierHash

theorem settled_burned (ledger : Ledger env t) (settled : Settled t.state index broadcast row) :
    ∃ args, BurnedFor env t row args := by
  obtain ⟨labels, sound⟩ := ledger.sound
  have found : grantOf t.state.db row.id = some (granted row) := by
    rw [grantOf, getAuthorizationById_of_mem settled.stored]
    rfl
  obtain ⟨submission, member, answer, called⟩ := ledger.attributed.grants row.id _ found
  obtain ⟨vault, there, here, own, held⟩ := called.vault
  obtain ⟨vault', there', here', own', amountSats, decrypted, owed⟩ :=
    (sound.owed row.id _ found).vault
  have same : vault = vault' := t.state.db.vaults.eq_of_clash there there' (by
    simp [vaultSchema, here, here'])
  subst same
  rw [own, Option.some.injEq] at own'
  rw [held, Except.ok.injEq] at decrypted
  have told := ledger.told.submitted submission member _ answer
  obtain ⟨calls, included⟩ := ledger.observed _ settled.final
  have legible := ledger.consumes.legible _ _ included rfl
  have sent := ledger.consumes.told _ _ _ told included
  obtain ⟨calls, rfl⟩ := Option.isSome_iff_exists.mp legible
  obtain ⟨args, rfl, nullifier, amount⟩ := withdraw_calls called.proof sent.symm
  refine ⟨args, ⟨_, env.relayer, included, List.mem_cons_self⟩, ?_, ?_, submission, member,
    answer, own'⟩
  · have named : submission.call.nullifierHash = row.nullifierHash := own'
    rw [← named, nullifier]
  · have sats : row.amountSats = actualSats amountSats := owed
    rw [sats, ← decrypted, amount]

/-- Two payments with one nullifier on the other chain are one payment. -/
theorem settled_apart {index' : Nat} {broadcast' : Broadcast} {row' : WithdrawalAuthorization}
    {args args' : WithdrawArgs} (ledger : Ledger env t)
    (settled : Settled t.state index broadcast row)
    (settled' : Settled t.state index' broadcast' row') (burned : BurnedFor env t row args)
    (burned' : BurnedFor env t row' args') (same : args.nullifier = args'.nullifier) :
    index = index' := by
  have hashes := ledger.consumes.apart _ _ _ _ burned.burned burned'.burned same
  obtain ⟨submission, member, answer, named⟩ := burned.answered
  obtain ⟨submission', member', answer', named'⟩ := burned'.answered
  have call := ledger.told.single _ member _ member' _ _ answer answer' hashes
  have nullifiers : row.nullifierHash = row'.nullifierHash := by rw [← named, call, named']
  have rows : row = row' := t.state.db.authorizations.eq_of_clash settled.stored settled'.stored (by
    simp [authorizationSchema, nullifiers])
  refine ledger.safe.1.once index index' broadcast.authId
    ((landed_iff env).mpr ⟨broadcast, settled.sent, rfl, settled.landed⟩)
    ((landed_iff env).mpr ⟨broadcast', settled'.sent, ?_, settled'.landed⟩)
  rw [← settled'.named, ← rows, settled.named]

end Payouts

/-- In every bridged run each payment that has landed for a confirmed withdrawal is matched with a
withdrawal of its own on the other chain, for the same nullifier and the amount it pays. -/
theorem landed_payouts_backed {start : State} {t : Logged} (fresh : Fresh start)
    (run : GuardedRun.Reaches (log env) (Bridged env) ⟨start, []⟩ t) :
    ∃ burnOf : WithdrawalAuthorization → WithdrawArgs,
      (∀ index broadcast row, Settled t.state index broadcast row →
        withdrawalEvent (burnOf row) ∈ t.state.chain.world.vault.events ∧
        env.felts.felt row.nullifierHash = some (burnOf row).nullifier ∧
        row.amountSats = actualSats (burnOf row).amount.val ∧
        ∃ utxos feeRate, PaysGrant env.toConfig utxos feeRate (granted row) broadcast.payment) ∧
      ∀ index index' broadcast broadcast' row row', Settled t.state index broadcast row →
        Settled t.state index' broadcast' row' →
        (burnOf row).nullifier = (burnOf row').nullifier → index = index' := by
  have ledger : Ledger env t := by
    refine run.invariant (fresh_ledger env fresh) ?_
    intro before label after ledger bridged logged
    obtain ⟨s', stepped, rfl⟩ := Option.map_eq_some_iff.mp logged
    exact step_ledger ledger bridged stepped
  have burns : ∀ row, ∃ args, ∀ index broadcast, Settled t.state index broadcast row →
      BurnedFor env t row args := by
    intro row
    by_cases settles : ∃ index broadcast, Settled t.state index broadcast row
    · obtain ⟨index, broadcast, settled⟩ := settles
      obtain ⟨args, burned⟩ := settled_burned ledger settled
      exact ⟨args, fun _ _ _ => burned⟩
    · refine ⟨⟨0, [], 0, 0⟩, fun index broadcast settled => ?_⟩
      exact absurd ⟨index, broadcast, settled⟩ settles
  choose burnOf burned using burns
  obtain ⟨labels, sound⟩ := ledger.sound
  refine ⟨burnOf, fun index broadcast row settled => ?_, ?_⟩
  · have held := burned row index broadcast settled
    obtain ⟨grant, found, utxos, feeRate, -, pays⟩ :=
      sound.paid broadcast (List.mem_of_getElem? settled.sent)
    have own : grant = granted row := by
      rw [grantOf, ← settled.named, getAuthorizationById_of_mem settled.stored] at found
      exact (Option.some.inj found).symm
    exact ⟨(ledger.consumes.used _ _ held.burned).1, held.nullifier, held.amount, utxos, feeRate,
      own ▸ pays⟩
  · intro index index' broadcast broadcast' row row' settled settled'
    exact settled_apart ledger settled settled' (burned row index broadcast settled)
      (burned row' index' broadcast' settled')

section Sample

variable {env} {t t' : Logged} {label : Label}

def includedLabel : Label := .block (sampleHash '4') none

def offlineLabel : Label :=
  .reply 0 (.mempool (.utxos (.error "offline"))) (sampleMoment ['e'])

/-- The withdrawal of the deposited vault; its immediate payout fails. -/
def failedLabels : List Label :=
  [fundLabel, withdrawRequest, withdrawAnswer, includedLabel, offlineLabel]

def pollLabel : Label := .request 0 .processAuthorizations (sampleMoment ['p'])

theorem log_run {labels : List Label} (ran : GuardedRun.run (log env) t labels = some t') :
    GuardedRun.run (step env) t.state labels = some t'.state := by
  induction labels generalizing t with
  | nil =>
      cases ran
      rfl
  | cons label labels ih =>
      rw [GuardedRun.run, Option.bind_eq_some_iff] at ran
      obtain ⟨t₁, logged, rest⟩ := ran
      obtain ⟨s₁, stepped, rfl⟩ := Option.map_eq_some_iff.mp logged
      rw [GuardedRun.run, stepped]
      exact ih rest

theorem bridged_block {txHash : Text} {calls : Option (List Call)} :
    Bridged env t (.block txHash calls) :=
  ⟨trivial, trivial, fun _ _ _ other => (by cases other), fun _ _ _ other => (by cases other)⟩

theorem bridged_request {id : Nat} {request : Request} {moment : Moment}
    (orderly : Orderly env t.state (.request id request moment))
    (route : ∀ body, request ≠ .executeWithdraw body) :
    Bridged env t (.request id request moment) := by
  refine ⟨orderly, trivial, fun _ _ _ other => (by cases other), fun _ body _ other => ?_⟩
  cases other
  exact route body rfl

theorem bridged_reply {id : Nat} {reply : Reply} {moment : Moment}
    (orderly : Orderly env t.state (.reply id reply moment))
    (honest : Honest env t.state (.reply id reply moment)) (silent : showsSuccess reply = false) :
    Bridged env t (.reply id reply moment) := by
  refine ⟨orderly, honest, fun _ _ _ other success => ?_, fun _ _ _ other => (by cases other)⟩
  cases other
  rw [silent] at success
  cases success

/-- The payout that a withdrawal under handler 0 races for. -/
def raced (s : State) : Option (Option Nat) :=
  match s.tasks 0 with
  | some (_, .withdraw (.racing _ payout)) => some payout.request
  | _ => none

theorem orderly_offline {s : State} (alone : raced s = some none) : Orderly env s offlineLabel := by
  intro request task waits
  unfold raced at alone
  split at alone
  · next held withdrawing payout here =>
    rw [waits] at here
    cases here
    refine fun _ => ⟨fun index sent => ?_, by simp⟩
    rw [Option.some.inj alone] at sent
    cases sent
  · cases alone

theorem orderly_answer {s : State} {outcome : Except Starknet.ExecuteFailure Text} {moment : Moment}
    (none_ : s.db.authorizations.rows = []) :
    Orderly env s (.reply 0 (.rpc (.executed outcome)) moment) := by
  intro request task waits
  unfold OrderlyReply
  split
  · intro auth found
    have member := (Table.find?_some found).1
    rw [none_] at member
    cases member
  all_goals first | trivial | simp_all

/-- The poll is alone, and the authorization is not completed. -/
theorem orderly_poll {s : State} {id : Text} (idle : ∀ id, s.tasks id = none)
    (pending : (getPendingAuthorizations s.db).map (fun auth => (auth.id, wellFormed auth)) =
      [(id, true)])
    (open_ : statusOf s.db id = some .pending) : Orderly env s pollLabel := by
  intro authId member
  have named : authId = id := by
    rcases listed : getPendingAuthorizations s.db with _ | ⟨auth, rest⟩
    · rw [listed] at member
      cases member
    · rw [listed, List.map_cons, List.cons.injEq, Prod.mk.injEq] at pending
      simpa [listed, reached, pending.1.2, pending.1.1] using member
  subst named
  refine ⟨?_, ?_⟩
  · show ¬ statusOf s.db authId = some .completed
    rw [open_]
    decide
  · intro other lease held
    simp [view, idle] at held

/-- The receipt that the handler asks for is of an included transaction. -/
def shownIncluded (s : State) : Bool :=
  ((s.tasks 0).bind fun held => asksReceipt held.2).any fun txHash =>
    (s.chain.included (canonicalHash txHash)).any Included.succeeded

theorem bridged_receipt (alone : lonely t.state = some none)
    (shown : shownIncluded t.state = true) : Bridged env t sampleReceipt := by
  have told : ∀ asked task txHash, t.state.tasks 0 = some (asked, task) →
      asksReceipt task = some txHash →
        ∃ calls, t.state.chain.included (canonicalHash txHash) = some ⟨calls, true⟩ := by
    intro asked task txHash waits asks
    simp only [shownIncluded, waits, asks, Option.bind_some, Option.any_some,
      Option.any_eq_true] at shown
    obtain ⟨⟨calls, succeeded⟩, there, rfl⟩ := shown
    exact ⟨calls, there⟩
  refine ⟨orderly_receipt env alone, ?_, ?_, fun _ _ _ other => by cases other⟩
  · intro _ asked task txHash waits asks
    obtain ⟨calls, there⟩ := told asked task txHash waits asks
    exact ⟨_, there, rfl⟩
  · intro id reply moment here _ asked task txHash waits asks
    cases here
    exact told asked task txHash waits asks

/-- The sample withdrawal is paid by the processor, and backed. -/
theorem landed_payouts_backed_deposited :
    ∃ t broadcast row burn, GuardedRun.Reaches (log burnMode) (Bridged burnMode) ⟨deposited, []⟩ t ∧
      Settled t.state 0 broadcast row ∧ row.amountSats = 100000 ∧
      withdrawalEvent burn ∈ t.state.chain.world.vault.events ∧
      row.amountSats = actualSats burn.amount.val := by
  have ran : ((log burnMode ⟨deposited, []⟩ fundLabel).bind fun t₁ =>
      (log burnMode t₁ withdrawRequest).bind fun t₂ =>
      (log burnMode t₂ withdrawAnswer).bind fun t₃ =>
      (log burnMode t₃ includedLabel).bind fun t₄ =>
      (log burnMode t₄ offlineLabel).bind fun t₅ => (log burnMode t₅ pollLabel).bind fun t₆ =>
      (log burnMode t₆ sampleReceipt).bind fun t₇ =>
      (log burnMode t₇ (fetchLabel 0 ['u'])).bind fun t₈ =>
      (log burnMode t₈ sampleTxid).map fun t₉ => 
        [t₁.state.db.vaults.rows.all fun row => row.withdrawTxHash.isNone,
          t₂.state.db.authorizations.rows.isEmpty,
          (t₂.state.chain.submitted (canonicalHash (sampleHash '4'))).isNone,
          (t₂.state.chain.included (canonicalHash (sampleHash '4'))).isNone,
          decide (raced t₄.state = some none), (t₅.state.tasks 0).isNone,
          decide ((getPendingAuthorizations t₅.state.db).map
            (fun auth => (auth.id, wellFormed auth)) = [(['w'], true)]),
          decide (statusOf t₅.state.db ['w'] = some .pending),
          decide (lonely t₆.state = some none), shownIncluded t₆.state,
          decide (lonely t₇.state = some none), decide (lonely t₈.state = some (some 0)),
          decide (t₉.state.broadcasts.map (fun b => (b.authId, b.landed)) = [(['w'], true)]),
          decide (t₉.state.db.authorizations.rows.map (fun row => (row.id, row.amountSats)) =
            [(['w'], 100000)]),
          t₉.state.db.authorizations.rows.all fun row =>
            decide (canonicalHash row.starknetTxHash ∈ t₉.state.observed)]) =
      some (List.replicate 15 true) := by
    decide +kernel
  simp only [Option.bind_eq_some_iff, Option.map_eq_some_iff, List.replicate, List.cons.injEq,
    and_true, List.all_eq_true, List.isEmpty_iff, Option.isNone_iff_eq_none,
    decide_eq_true_eq] at ran
  obtain ⟨t₁, funded, t₂, asked, t₃, told, t₄, included, t₅, failed, t₆, polled, t₇, confirmed, t₈,
    fetched, t₉, paid, first, unauthorized, unsubmitted, unincluded, alone₄, ended, pending, open_,
    alone₆, shown, alone₇, alone₈, sent, granted, final⟩ := ran
  have idle : ∀ id, t₅.state.tasks id = none := by
    intro id
    by_cases own : id = 0
    · rw [own, ended]
    · have ran : GuardedRun.run (log burnMode) ⟨deposited, []⟩ failedLabels = some t₅ := by
        simp [failedLabels, GuardedRun.run, funded, asked, told, included, failed]
      refine run_idle burnMode ?_ rfl (log_run ran)
      intro label member
      simp only [failedLabels, List.mem_cons, List.not_mem_nil, or_false] at member
      rcases member with rfl | rfl | rfl | rfl | rfl <;>
        simp [Label.handler, fundLabel, withdrawRequest, withdrawAnswer, includedLabel,
          offlineLabel, Ne.symm own]
  have run₁ := GuardedRun.Reaches.start.step (bridged_block : Bridged burnMode _ fundLabel) funded
  have submits : Bridged burnMode t₁ withdrawRequest := by
    refine bridged_request ?_ (by simp)
    intro request vault txHash gate
    obtain ⟨screens, has⟩ := WithdrawGate.withdrawGate_retry gate
    rw [first vault screens.member.1] at has
    cases has
  have answers : Bridged burnMode t₂ withdrawAnswer := by
    refine bridged_reply (orderly_answer unauthorized) ?_ rfl
    intro _ _ _ _ _
    refine ⟨unsubmitted, fun held there => ?_⟩
    rw [unincluded] at there
    cases there
  have run₄ := ((run₁.step submits asked).step answers told).step bridged_block included
  have run₅ := run₄.step (bridged_reply (orderly_offline alone₄) trivial rfl) failed
  have run₆ := run₅.step (bridged_request (orderly_poll idle pending open_) (by simp)) polled
  have run₇ := run₆.step (bridged_receipt alone₆ shown) confirmed
  have run₈ := run₇.step (bridged_reply (orderly_fetch burnMode alone₇) trivial rfl) fetched
  have run₉ := run₈.step (bridged_reply (orderly_txid burnMode alone₈) trivial rfl) paid
  have fresh : Fresh deposited := by
    have stored : (deposited.db.authorizations.rows.isEmpty &&
        deposited.db.vaults.rows.all fun row => row.withdrawTxHash.isNone) = true := by
      decide +kernel
    simp only [Bool.and_eq_true, List.isEmpty_iff, List.all_eq_true,
      Option.isNone_iff_eq_none] at stored
    exact ⟨⟨fun _ => rfl, rfl⟩, rfl, rfl, stored.1, stored.2, fun _ => rfl, fun _ => rfl⟩
  obtain ⟨burnOf, backed, -⟩ := landed_payouts_backed burnMode fresh run₉
  rcases broadcasts : t₉.state.broadcasts with _ | ⟨broadcast, others⟩
  · simp [broadcasts] at sent
  rcases rows : t₉.state.db.authorizations.rows with _ | ⟨row, more⟩
  · simp [rows] at granted
  simp only [broadcasts, rows, List.map_cons, List.cons.injEq, Prod.mk.injEq] at sent granted
  have settled : Settled t₉.state 0 broadcast row := by
    refine ⟨by simp [broadcasts], sent.1.2, by simp [rows], granted.1.1.trans sent.1.1.symm, ?_⟩
    exact final row (by simp [rows])
  obtain ⟨event, -, amount, -⟩ := backed 0 broadcast row settled
  exact ⟨t₉, broadcast, row, burnOf row, run₉, settled, granted.1.2, event, amount⟩

end Sample

end PrivateBtc.Backend.BackedPayouts
