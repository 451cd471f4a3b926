/- PrivateBtc/Backend/PayoutRetries
   digest: Which runs leave every withdrawn vault with a payout that is made or is tried again. -/

import PrivateBtc.Backend.BurnGrants
import PrivateBtc.Backend.PayoutMarks

set_option autoImplicit false
set_option relaxedAutoImplicit false

namespace PrivateBtc.Backend.PayoutRetries

open Library Library.JsText
open Authorizations BurnGrants CarriedRows Database Http PayoutMarks Payments Processor Server
open Starknet VaultWrites Withdrawals
open WithdrawGate (WithdrawCall WithdrawRequest withdrawGate)

variable (env : Environment)

/-- The authorization that a waiting handler will mark again before it ends. -/
def holder : Task → Option Text
  | .withdraw task => heldByRoute env.toConfig task
  | .processor task => some (heldByLoop task)
  | _ => none

/-- A payout is started with a wallet, and proceeds; a withdrawal gets its authorization, also
one by proof. -/
def Retried (s : State) : Label → Prop
  | .request _ (.withdraw body) _ => ∀ request vault txHash,
      withdrawGate env.senderAddress env.crypto s.db body = .ok (.retry request vault txHash) →
        Funded env.toConfig
  | .reply id (.rpc (.executed (.ok txHash))) moment => ∀ asked request vault call,
      s.tasks id = some (asked, .withdraw (.executing request vault call)) →
        Funded env.toConfig ∧
          (Authorized s.db request.nullifierHash ∨ Storable s.db moment txHash)
  | .reply id (.rpc (.receipt (.ok receipt))) _ => ∀ asked txHash withdrawal blockNumber nullifierHash,
      s.tasks id = some (asked, .execute (.event txHash withdrawal blockNumber)) →
        withdrawal.nullifierHash = some nullifierHash →
          verifyWithdrawalEvent env.vaultContractAddress receipt nullifierHash = true →
            Authorized s.db nullifierHash
  | .reply id (.mempool reply) _ => ∀ asked task payout, s.tasks id = some (asked, .withdraw task) →
      payoutOf (.withdraw task) = some payout → env.useCovenants = false →
        Proceeds env.toConfig payout reply
  | _ => True

theorem lift_tends {T A : Type} {task : T → Task} {answer : A → Answer} {turn : Turn T A} {db : Db}
    (same : turn.db.authorizations = db.authorizations) (quiet : ∀ t, holder env (task t) = none) :
    Tends none db (lift task answer turn).db ((lift task answer turn).next.bind (holder env)) := by
  have unheld : (lift task answer turn).next.bind (holder env) = none := by
    rw [Option.bind_eq_none_iff]
    intro next waits
    obtain ⟨t, _, rfl⟩ := Option.map_eq_some_iff.mp waits
    exact quiet t
  rw [unheld]
  exact Tends.of_same same

theorem liftPay_holder {answer : WithdrawAnswer → Answer} {turn : WithdrawTurn} :
    (liftPay .withdraw answer turn).next.bind (holder env) =
      turn.next.bind (heldByRoute env.toConfig) := by
  rw [liftPay, lift, Option.bind_map]
  rfl

theorem liftPay_loop {answer : Unit → Answer} {turn : ProcessorTurn} :
    (liftPay .processor answer turn).next.bind (holder env) = turn.next.map heldByLoop := by
  rw [liftPay, lift, Option.bind_map]
  cases turn.next <;> rfl

theorem begin_tends {s : State} {id : Nat} {request : Request} {moment : Moment}
    (signet : Signet s.db) (retried : Retried env s (.request id request moment)) :
    Tends none s.db (begin env moment s.issued s.db request).db
      ((begin env moment s.issued s.db request).next.bind (holder env)) := by
  have quiet : ∀ r, (∀ body, r ≠ .withdraw body) → r ≠ .processAuthorizations →
      (∀ task, (begin env moment s.issued s.db r).next = some task → holder env task = none) →
      Tends none s.db (begin env moment s.issued s.db r).db
        ((begin env moment s.issued s.db r).next.bind (holder env)) := by
    intro r silent idle unheld
    rw [(begin_db_of_silent env moment s.issued s.db r silent idle).1,
      Option.bind_eq_none_iff.mpr unheld]
    exact Tends.of_same rfl
  cases request with
  | withdraw body =>
      rw [show begin env moment s.issued s.db (.withdraw body) =
        liftPay .withdraw .withdraw (withdraw env.toConfig moment s.db body) from rfl, liftPay_holder]
      show Tends none s.db (withdraw env.toConfig moment s.db body).db _
      unfold withdraw
      split
      · exact Tends.of_same rfl
      · exact Tends.of_same rfl
      · next request vault txHash gate =>
        exact authorize_tends (retried request vault txHash gate) signet _
  | processAuthorizations =>
      rw [show begin env moment s.issued s.db .processAuthorizations =
        liftPay .processor (fun _ => .processed) (processAuthorizations moment s.db) from rfl,
        liftPay_loop]
      exact takeNext_tends moment s.db (getPendingAuthorizations s.db)
  | _ =>
      refine quiet _ (by simp) (by simp) fun task waits => ?_
      obtain ⟨_, _, rfl⟩ := Option.map_eq_some_iff.mp waits
      rfl

theorem resume_tends {s : State} {id : Nat} {request : Request} {task : Task} {reply : Reply}
    {moment : Moment} {turn : SystemTurn} (waits : s.tasks id = some (request, task))
    (signet : Signet s.db) (retried : Retried env s (.reply id reply moment))
    (resumed : resume env moment s.broadcasts.length s.db task reply = some turn) :
    Tends (holder env task) s.db turn.db (turn.next.bind (holder env)) := by
  cases resume_resumed env resumed with
  | deposit went =>
      exact lift_tends env (Deposits.resumeDeposit_writes _ _ went).apart.authorizations
        fun _ => rfl
  | execute went =>
      exact lift_tends env ((resumeExecute_writes _ _ went).authorizations _ _) fun _ => rfl
  | audit went =>
      exact lift_tends env (resumeAudit_refreshes went).apart.authorizations fun _ => rfl
  | @executing request vault call answer =>
      rw [liftPay_holder]
      cases answer with
      | error failure => exact Tends.of_same rfl
      | ok txHash =>
          exact authorize_tends (retried _ request vault call waits).1 signet
            ⟨request, vault.id, txHash, false⟩
  | @racing withdrawing payout answer after went =>
      rw [liftPay_holder]
      exact resumeRacing_tends (retried _ _ payout waits rfl) went
  | @orphaned payout answer after went =>
      rw [liftPay_holder]
      exact resumeOrphaned_tends (retried _ _ payout waits rfl) went
  | @verifying auth rest answer =>
      rw [liftPay_loop]
      unfold afterVerification
      split_ifs
      · exact sendPayout_tends env.toConfig moment s.db auth rest
      · exact giveBack_tends moment s.db auth.id rest
  | paying went =>
      rw [liftPay_loop]
      exact resumePaying_tends env.toConfig moment went

theorem expire_tends {moment : Moment} {db : Db} {task : Task} {turn : SystemTurn}
    (expired : expire moment db task = some turn) :
    Tends (holder env task) db turn.db (turn.next.bind (holder env)) := by
  cases expire_expired expired with
  | @racing withdrawing payout =>
      rw [liftPay_holder]
      exact loseRace_tends db withdrawing payout

/-- Whatever is unsettled is held. -/
def Tended (s : State) : Prop :=
  ∀ authId, Unsettled s.db authId →
    ∃ id request task, s.tasks id = some (request, task) ∧ holder env task = some authId

theorem settle_tended {s heard : State} {id : Nat} {request : Request} {turn : SystemTurn}
    {held : Option Text} (tended : Tended env s) (tasks : heard.tasks = s.tasks)
    (holds : held = (s.tasks id).bind fun held => holder env held.2)
    (tends : Tends held s.db turn.db (turn.next.bind (holder env))) :
    Tended env (settle heard id request turn) := by
  intro authId unsettled
  rcases tends authId unsettled with taken | ⟨other, before⟩
  · obtain ⟨task, next, own⟩ := Option.bind_eq_some_iff.mp taken
    refine ⟨id, request, task, ?_, own⟩
    rw [settle_tasks, if_pos rfl, next]
    rfl
  · obtain ⟨id', request', task, waits, own⟩ := tended authId before
    have apart : id' ≠ id := by
      rintro rfl
      rw [holds, waits] at other
      exact other own
    refine ⟨id', request', task, ?_, own⟩
    rw [settle_tasks, if_neg apart, tasks, waits]

theorem step_tended {s s' : State} {label : Label} (tended : Tended env s) (signet : Signet s.db)
    (retried : Retried env s label) (stepped : step env s label = some s') : Tended env s' := by
  cases step_stepped env stepped with
  | request idle =>
      exact settle_tended env tended rfl (by rw [idle]; rfl) (begin_tends env signet retried)
  | reply waits resumed =>
      exact settle_tended env tended rfl (by rw [waits]; rfl)
        (resume_tends env waits signet retried resumed)
  | timeout waits expired =>
      exact settle_tended env tended rfl (by rw [waits]; rfl) (expire_tends env expired)
  | land => exact tended
  | block fresh => exact tended

/-- The vault's nullifier has an authorization. -/
def Backed (db : Db) (row : VaultRow) : Prop :=
  ∃ nullifierHash, row.nullifierHash = some nullifierHash ∧ Authorized db nullifierHash

theorem Backed.extends {db db' : Db} {row : VaultRow} (backed : Backed db row)
    (extends_ : Extends db db') : Backed db' row := by
  obtain ⟨nullifierHash, own, authorized⟩ := backed
  exact ⟨nullifierHash, own, authorized.extends extends_⟩

/-- The row keeps its nullifier, or has got one with an authorization. -/
def Tracks (db : Db) (row row' : VaultRow) : Prop :=
  (∀ nullifierHash, row.nullifierHash = some nullifierHash →
    row'.nullifierHash = some nullifierHash) ∨ Backed db row'

theorem Tracks.backed {db : Db} {row row' : VaultRow} (tracks : Tracks db row row')
    (backed : Backed db row) : Backed db row' := by
  rcases tracks with same | better
  · obtain ⟨nullifierHash, own, authorized⟩ := backed
    exact ⟨nullifierHash, same nullifierHash own, authorized⟩
  · exact better

section Steps

variable {env} {s s' : State} {label : Label}

theorem spend_backed {txHash nullifierHash : Text} {withdrawal : ExecutingWithdrawal} {usedAt : Nat}
    (retried : Retried env s label)
    (issues : Issues env s label (.spend txHash nullifierHash withdrawal usedAt)) :
    Authorized s.db nullifierHash := by
  cases issues with
  | spent waits own answer shown _ =>
      subst answer
      exact retried _ _ _ _ _ waits own shown
  | spv _ _ _ _ _ told => split_ifs at told
  | relayed _ _ _ told => rcases told with told | told <;> cases told

theorem written_tracks {write : VaultWrite} (retried : Retried env s label)
    (issues : Issues env s label write) (row : VaultRow) : Tracks s.db row (write.written row) := by
  unfold VaultWrite.written
  split_ifs
  · cases write with
    | revive new =>
        left
        intro nullifierHash own
        show row.nullifierHash.or _ = _
        rw [own, Option.some_or]
    | reviveRelayed relaying txHash =>
        left
        intro nullifierHash own
        show row.nullifierHash.or _ = _
        rw [own, Option.some_or]
    | spend txHash nullifierHash withdrawal usedAt =>
        exact Or.inr ⟨nullifierHash, rfl, spend_backed retried issues⟩
    | _ => exact Or.inl fun _ own => own
  · exact Or.inl fun _ own => own

/-- Every vault is still there after a step, as it was or better. -/
theorem step_tracks (retried : Retried env s label) (stepped : step env s label = some s')
    {row : VaultRow} (member : row ∈ s.db.vaults.rows) :
    ∃ row' ∈ s'.db.vaults.rows, row'.id = row.id ∧ Tracks s.db row row' := by
  cases step_wrote env stepped with
  | nothing vaults _ => exact ⟨row, by rwa [vaults], rfl, Or.inl fun _ own => own⟩
  | wrote write issues rows _ =>
      refine ⟨write.written row, ?_, write.written_id row, written_tracks retried issues row⟩
      rw [rows]
      exact List.mem_append_left _ (List.mem_map_of_mem member)

/-- A withdrawn vault has an authorization, and one that is about to be closed has, or will
have one for the nullifier that its handler was asked for. -/
structure Covered (s : State) : Prop where
  withdrawn : ∀ row ∈ s.db.vaults.rows, row.status = .withdrawn → Backed s.db row
  racing : ∀ id request withdrawing payout,
    s.tasks id = some (request, .withdraw (.racing withdrawing payout)) →
      withdrawing.isRetry = false →
        ∃ row ∈ s.db.vaults.rows, row.id = withdrawing.vaultId ∧ Backed s.db row
  executing : ∀ id asked request vault call,
    s.tasks id = some (asked, .withdraw (.executing request vault call)) →
      ∃ row ∈ s.db.vaults.rows, row.id = vault.id ∧
        (row.nullifierHash = some request.nullifierHash ∨ Backed s.db row)

/-- The vault that is being closed has its authorization after the step. -/
theorem close_backed (covered : Covered s) (standing : Standing env s)
    (retried : Retried env s label) (extends_ : Extends s.db s'.db)
    (stepped : step env s label = some s') {withdrawing : Withdrawing}
    (issues : Issues env s label (.close withdrawing)) {row : VaultRow}
    (member : row ∈ s.db.vaults.rows) (named : row.id = withdrawing.vaultId) :
    Backed s'.db row := by
  have sole : ∀ other ∈ s.db.vaults.rows, other.id = withdrawing.vaultId → other = row := by
    intro other there same
    exact s.db.vaults.eq_of_clash there member (by simp [vaultSchema, same, named])
  cases issues with
  | submitted waits =>
      obtain ⟨other, there, id, own⟩ := covered.executing _ _ _ _ _ waits
      rw [sole other there id] at own
      rcases own with own | backed
      · have permitted := (retried _ _ _ _ waits).2
        exact ⟨_, own, executed_authorized env standing waits permitted stepped⟩
      · exact backed.extends extends_
  | raced waits first =>
      obtain ⟨other, there, id, backed⟩ := covered.racing _ _ _ _ waits first
      exact (sole other there id ▸ backed).extends extends_
  | expired waits first =>
      obtain ⟨other, there, id, backed⟩ := covered.racing _ _ _ _ waits first
      exact (sole other there id ▸ backed).extends extends_
  | spv _ _ _ _ _ told => split_ifs at told
  | relayed _ _ _ told => rcases told with told | told <;> cases told

theorem step_withdrawn (covered : Covered s) (standing : Standing env s)
    (retried : Retried env s label) (extends_ : Extends s.db s'.db)
    (stepped : step env s label = some s') :
    ∀ row ∈ s'.db.vaults.rows, row.status = .withdrawn → Backed s'.db row := by
  intro row' member' withdrawn
  cases step_wrote env stepped with
  | nothing vaults _ =>
      rw [vaults] at member'
      exact (covered.withdrawn row' member' withdrawn).extends extends_
  | wrote write issues rows _ =>
      rw [rows] at member'
      rcases List.mem_append.mp member' with old | new
      · obtain ⟨row, member, rfl⟩ := List.mem_map.mp old
        unfold VaultWrite.written at withdrawn ⊢
        split_ifs at withdrawn ⊢ with selected
        · rw [VaultWrite.change_status selected] at withdrawn
          cases write with
          | close withdrawing =>
              have named : row.id = withdrawing.vaultId := by
                simpa [VaultWrite.selects] using selected
              obtain ⟨nullifierHash, own, authorized⟩ : Backed s'.db row :=
                close_backed covered standing retried extends_ stepped issues member named
              exact ⟨nullifierHash, own, authorized⟩
          | spend txHash nullifierHash withdrawal usedAt =>
              exact ⟨nullifierHash, rfl, (spend_backed retried issues).extends extends_⟩
          | refresh task status =>
              cases issues with
              | refreshed _ told =>
                  rw [show status = .withdrawn from withdrawn] at told
                  exact absurd told (finds_open task _)
              | spv _ _ _ _ _ told => split_ifs at told
              | relayed _ _ _ told => rcases told with told | told <;> cases told
          | insert row => cases selected
          | _ => cases withdrawn
        · exact (covered.withdrawn row member withdrawn).extends extends_
      · cases write with
        | insert row =>
            rw [List.mem_singleton.mp new] at withdrawn
            exact absurd withdrawn (insert_open env issues).1
        | _ => cases new

theorem step_covered (covered : Covered s) (standing : Standing env s)
    (retried : Retried env s label) (extends_ : Extends s.db s'.db)
    (stepped : step env s label = some s') : Covered s' := by
  have later : ∀ {vaultId}, (∃ row ∈ s.db.vaults.rows, row.id = vaultId ∧ Backed s.db row) →
      ∃ row ∈ s'.db.vaults.rows, row.id = vaultId ∧ Backed s'.db row := by
    rintro vaultId ⟨row, member, named, backed⟩
    obtain ⟨row', member', same, tracks⟩ := step_tracks retried stepped member
    exact ⟨row', member', same.trans named, (tracks.backed backed).extends extends_⟩
  have awaited : ∀ {vaultId nullifierHash}, (∃ row ∈ s.db.vaults.rows, row.id = vaultId ∧
      (row.nullifierHash = some nullifierHash ∨ Backed s.db row)) →
      ∃ row ∈ s'.db.vaults.rows, row.id = vaultId ∧
        (row.nullifierHash = some nullifierHash ∨ Backed s'.db row) := by
    rintro vaultId nullifierHash ⟨row, member, named, own | backed⟩
    · obtain ⟨row', member', same, tracks⟩ := step_tracks retried stepped member
      refine ⟨row', member', same.trans named, ?_⟩
      rcases tracks with kept | better
      · exact Or.inl (kept nullifierHash own)
      · exact Or.inr (better.extends extends_)
    · obtain ⟨row', member', named', backed'⟩ := later ⟨row, member, named, backed⟩
      exact ⟨row', member', named', Or.inr backed'⟩
  refine ⟨step_withdrawn covered standing retried extends_ stepped, ?_, ?_⟩
  · intro id request withdrawing payout waits first
    cases step_arises env stepped waits with
    | kept held => exact later (covered.racing _ _ _ _ held first)
    | begun next =>
        rw [begin_racing env next] at first
        cases first
    | resumed held went next =>
        cases resume_withdraw env went next with
        | racing _ before _ was =>
            subst was
            exact later (covered.racing _ _ _ _ held first)
        | submitted asked vault call txHash _ was answer =>
            subst was answer
            have permitted := (retried _ _ _ _ held).2
            have authorized := executed_authorized env standing held permitted stepped
            obtain ⟨row, member, named, own | backed⟩ :=
              awaited (covered.executing _ _ _ _ _ held)
            · exact ⟨row, member, named, _, own, authorized⟩
            · exact ⟨row, member, named, backed⟩
    | expired held went next =>
        obtain ⟨_, _, -, orphaned⟩ := expire_withdraw went next
        cases orphaned
  · intro id asked request vault call waits
    cases step_arises env stepped waits with
    | kept held => exact awaited (covered.executing _ _ _ _ _ held)
    | begun next =>
        cases begin_withdraw env next with
        | submit gate =>
            obtain ⟨-, admitted⟩ := (WithdrawGate.withdrawGate_submit _ _ _ _ _ _).mp ⟨call, gate⟩
            obtain ⟨member, chosen⟩ := Table.find?_some admitted.found
            exact awaited ⟨vault, member, rfl, Or.inl (by simpa using chosen)⟩
    | resumed held went next => cases resume_withdraw env went next
    | expired held went next =>
        obtain ⟨_, _, -, orphaned⟩ := expire_withdraw went next
        cases orphaned

end Steps

/-- A withdraw handler or a processor is at work, or a payout of the legacy sender is that has
outlived its handler; in covenant mode such a payout writes nothing any more. -/
def Engaged : Task → Prop
  | .withdraw (.orphaned _) => env.useCovenants = false
  | .withdraw _ | .processor _ => True
  | _ => False

def Quiet (s : State) : Prop :=
  ∀ id request task, s.tasks id = some (request, task) → ¬ Engaged env task

/-- In a run without a payout that fails for good, every withdrawn vault has an authorization
that is completed, or pending for the next poll. -/
theorem withdrawn_retried {genesis : Contracts.Vault.Genesis} {s : State}
    (run : Reaches env (Retried env) (boot genesis) s) (quiet : Quiet env s) :
    ∀ row ∈ s.db.vaults.rows, row.status = .withdrawn →
      ∃ auth ∈ s.db.authorizations.rows, row.nullifierHash = some auth.nullifierHash ∧
        (auth.status = .completed ∨ auth.status = .pending) := by
  let Invariant (s : State) : Prop := Carries s ∧ Standing env s ∧ Signet s.db ∧ Tended env s ∧
    Covered s
  have first : Invariant (boot genesis) := by
    refine ⟨?_, ?_, ?_, ?_, ⟨?_, ?_, ?_⟩⟩
    · intro id request task waits
      cases waits
    · intro id asked request vault call waits
      cases waits
    · intro id grant found
      cases found
    · intro authId unsettled
      rcases unsettled with unsettled | unsettled <;> cases unsettled
    · intro row member
      cases member
    · intro id request withdrawing payout waits
      cases waits
    · intro id asked request vault call waits
      cases waits
  have holds : Invariant s := by
    refine run.invariant first ?_
    rintro s₁ label s₂ ⟨carries, standing, signet, tended, covered⟩ retried stepped
    obtain ⟨extends_, carries'⟩ := step_carries env carries stepped
    exact ⟨carries', step_standing env standing stepped, signet.extends extends_,
      step_tended env tended signet retried stepped,
      step_covered covered standing retried extends_ stepped⟩
  obtain ⟨-, -, -, tended, covered⟩ := holds
  intro row member withdrawn
  obtain ⟨nullifierHash, own, auth, there, named⟩ := covered.withdrawn row member withdrawn
  refine ⟨auth, there, by rw [own, named], ?_⟩
  have settled : ¬ Unsettled s.db auth.id := by
    intro unsettled
    obtain ⟨id, request, task, waits, held⟩ := tended auth.id unsettled
    have idle := quiet id request task waits
    cases task with
    | withdraw later =>
        cases later with
        | orphaned payout =>
            have covenants : env.useCovenants = true := by
              by_contra legacy
              exact idle (Bool.eq_false_iff.mpr legacy)
            rw [holder, heldByRoute, if_pos covenants] at held
            cases held
        | _ => exact idle trivial
    | processor later => exact idle trivial
    | _ => cases held
  have status : statusOf s.db auth.id = some auth.status := by
    rw [statusOf, getAuthorizationById_of_mem there]
    rfl
  rw [Unsettled, status] at settled
  cases known : auth.status <;> simp [known] at settled ⊢

section Sample

theorem unpaid_quiet {mode : Environment} {s : State}
    (ran : GuardedRun.run (step mode) (boot sampleGenesis) unpaidLabels = some s)
    (first : s.tasks 0 = none) (second : s.tasks 1 = none) : Quiet mode s := by
  intro id request task waits
  have idle : s.tasks id = none := by
    by_cases deposit : id = 0
    · rw [deposit, first]
    · by_cases withdrawal : id = 1
      · rw [withdrawal, second]
      · refine run_idle mode ?_ rfl ran
        intro label member named
        simp only [unpaidLabels, withdrawLabels, depositLabels, List.mem_append, List.mem_cons,
          List.not_mem_nil, or_false] at member
        rcases member with ((rfl | rfl | rfl | rfl) | rfl | rfl) | rfl
        all_goals simp only [Label.handler, Option.some.injEq] at named; omega
  rw [idle] at waits
  cases waits

/-- USE_OPCAT_COVENANTS=false -/
def legacyMode : Environment :=
  { covenantMode with
    useCovenants := false
    senderAddress := some ['t', 'b', '1', 's']
    senderPrivateKey := some ['k'] }

/-- The legacy sender records that it has failed, and nobody takes that up again. -/
theorem legacy_stuck :
    ∃ s, Reaches legacyMode (fun _ _ => True) (boot sampleGenesis) s ∧ Quiet legacyMode s ∧
      ¬ ∀ row ∈ s.db.vaults.rows, row.status = .withdrawn →
        ∃ auth ∈ s.db.authorizations.rows, row.nullifierHash = some auth.nullifierHash ∧
          (auth.status = .completed ∨ auth.status = .pending) := by
  have ran : (GuardedRun.run (step legacyMode) (boot sampleGenesis) unpaidLabels).map
      (fun s => (s.db.vaults.rows.map VaultRow.status,
        s.db.authorizations.rows.map WithdrawalAuthorization.status,
        (s.tasks 0).isNone, (s.tasks 1).isNone)) =
      some ([.withdrawn], [.failed], true, true) := by decide +kernel
  simp only [Option.map_eq_some_iff, Prod.mk.injEq, Option.isNone_iff_eq_none] at ran
  obtain ⟨s, ran, vaults, auths, first, second⟩ := ran
  refine ⟨s, GuardedRun.Reaches.start.of_run (fun _ _ _ => trivial) ran,
    unpaid_quiet ran first second, fun retried => ?_⟩
  obtain ⟨row, member, withdrawn⟩ : ∃ row ∈ s.db.vaults.rows, row.status = .withdrawn := by
    rw [← List.mem_map, vaults]
    exact List.mem_cons_self
  obtain ⟨auth, there, -, settled⟩ := retried row member withdrawn
  have failed : auth.status ∈ s.db.authorizations.rows.map WithdrawalAuthorization.status :=
    List.mem_map_of_mem there
  rw [auths, List.mem_singleton] at failed
  rw [failed] at settled
  rcases settled with settled | settled <;> cases settled

/-- A check that is enough in covenant mode. -/
def safeLabel (s : State) : Label → Bool
  | .reply id (.rpc (.executed (.ok txHash))) _ =>
      match s.tasks id with
      | some (_, .withdraw _) => s.db.authorizations.rows.isEmpty && isTxHash txHash &&
          ['0', 'x'].isPrefixOf txHash
      | _ => true
  | .reply id (.rpc (.receipt _)) _ =>
      match s.tasks id with
      | some (_, .execute _) => false
      | _ => true
  | _ => true

theorem safeLabel_retried (s : State) (label : Label) (safe : safeLabel s label = true) :
    Retried covenantMode s label := by
  have funded : Funded covenantMode.toConfig := fun legacy => by cases legacy
  unfold Retried
  split
  · exact fun _ _ _ _ => funded
  · intro asked request vault call waits
    simp only [safeLabel, waits, Bool.and_eq_true, List.isEmpty_iff] at safe
    obtain ⟨⟨unused, legible⟩, hex⟩ := safe
    refine ⟨funded, Or.inr ⟨hex, by simpa using (Bool.and_eq_true_iff.mp legible).1, ?_⟩⟩
    intro row member
    rw [unused] at member
    cases member
  · intro asked txHash withdrawal blockNumber nullifierHash waits
    simp [safeLabel, waits] at safe
  · intro asked task payout waits pays legacy
    cases legacy
  · trivial

/-- In covenant mode the same payout stays pending for the processor. -/
theorem covenant_retried :
    ∃ s, Reaches covenantMode (Retried covenantMode) (boot sampleGenesis) s ∧
      s.db.vaults.rows.map VaultRow.status = [.withdrawn] ∧
      ∀ row ∈ s.db.vaults.rows, row.status = .withdrawn →
        ∃ auth ∈ s.db.authorizations.rows, row.nullifierHash = some auth.nullifierHash ∧
          (auth.status = .completed ∨ auth.status = .pending) := by
  have ran : (GuardedRun.runIf (step covenantMode) safeLabel (boot sampleGenesis) unpaidLabels).map
      (fun s => (s.db.vaults.rows.map VaultRow.status, (s.tasks 0).isNone, (s.tasks 1).isNone)) =
      some ([.withdrawn], true, true) := by decide +kernel
  simp only [Option.map_eq_some_iff, Prod.mk.injEq, Option.isNone_iff_eq_none] at ran
  obtain ⟨s, ran, vaults, first, second⟩ := ran
  have run : Reaches covenantMode (Retried covenantMode) (boot sampleGenesis) s :=
    GuardedRun.Reaches.start.of_runIf safeLabel_retried ran
  have quiet : Quiet covenantMode s := unpaid_quiet (GuardedRun.run_of_runIf ran) first second
  exact ⟨s, run, vaults, withdrawn_retried covenantMode run quiet⟩

end Sample

end PrivateBtc.Backend.PayoutRetries
